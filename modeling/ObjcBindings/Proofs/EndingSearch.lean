/-
  ObjcBindings.Proofs.EndingSearch
  ────────────────────────────────
  **EVERY SEARCH COMES TO AN END.**

  A walk looks at one reference and walks, in turn, through what it leads to.
  What it leads to may lead back to it:

      typedef T T        struct S { struct S s; }        enum E : E
      a class below itself

  `Walks` and `Collects` say what the walks do and leave open whether they end:
  a walk inside which another one begins for ever has no result.

  Main results:
    • `calls_cases` — a walk inside a walk is through a smaller type, or a USR
      of the table was recorded before it,
    • `wellFounded_calls` — so walks are not nested for ever,
    • `search_ends` — and the search of every table has one result, which is
      that of `Table.used`.
-/
import ObjcBindings.Proofs.RecordedKinds
import ObjcBindings.Proofs.TableAgreement
import Mathlib

namespace ObjcBindings

open Text (NameSet)

/-! ## §1. One after the other. -/

/-- Something is done with each of some things in turn: with what was recorded
before it, up to the first failure. -/
inductive InTurn {α : Type} (R : α → Used → Except Failure Used → Prop) :
    List α → Used → Except Failure Used → Prop where
  | done {used : Used} : InTurn R [] used (.ok used)
  | next {x : α} {xs : List α} {used used' : Used} {result : Except Failure Used}
      (first : R x used (.ok used')) (others : InTurn R xs used' result) :
      InTurn R (x :: xs) used result
  | fail {x : α} {xs : List α} {used : Used} {e : Failure} (first : R x used (.error e)) :
      InTurn R (x :: xs) used (.error e)

section InTurn

variable {α : Type} {R : α → Used → Except Failure Used → Prop} {x : α} {xs ys : List α}
  {used : Used} {result : Except Failure Used}

/-- Nothing in turn changes nothing. -/
theorem inTurn_nil_iff : InTurn R [] used result ↔ result = .ok used := by
  constructor
  · rintro ⟨⟩
    rfl
  · rintro rfl
    exact .done

/-- The first comes first, and the others only if it ends well. -/
theorem inTurn_cons_iff : InTurn R (x :: xs) used result ↔
    (∃ used', R x used (.ok used') ∧ InTurn R xs used' result) ∨
      ∃ e, R x used (.error e) ∧ result = .error e := by
  constructor
  · intro h
    cases h with
    | next first others => exact .inl ⟨_, first, others⟩
    | fail first => exact .inr ⟨_, first, rfl⟩
  · rintro (⟨used', first, others⟩ | ⟨e, first, rfl⟩)
    · exact .next first others
    · exact .fail first

/-- Two lists in turn are one after the other. -/
theorem inTurn_append_iff : InTurn R (xs ++ ys) used result ↔
    (∃ used', InTurn R xs used (.ok used') ∧ InTurn R ys used' result) ∨
      ∃ e, InTurn R xs used (.error e) ∧ result = .error e := by
  induction xs generalizing used with
  | nil => simp [inTurn_nil_iff]
  | cons x xs ih =>
      rw [List.cons_append, inTurn_cons_iff]
      constructor
      · -- The run breaks in the first list, or where the second one begins.
        rintro (⟨used', first, others⟩ | ⟨e, first, rfl⟩)
        · rcases ih.1 others with ⟨used₁, hxs, hys⟩ | ⟨e, hxs, rfl⟩
          · exact .inl ⟨used₁, .next first hxs, hys⟩
          · exact .inr ⟨e, .next first hxs, rfl⟩
        · exact .inr ⟨e, .fail first, rfl⟩
      · rintro (⟨used₁, hxs, hys⟩ | ⟨e, hxs, rfl⟩)
        · cases hxs with
          | next first others => exact .inl ⟨_, first, ih.2 (.inl ⟨used₁, others, hys⟩)⟩
        · cases hxs with
          | next first others => exact .inl ⟨_, first, ih.2 (.inr ⟨e, others, rfl⟩)⟩
          | fail first => exact .inr ⟨e, first, rfl⟩

/-- Where each thing has the result of a function, all of them have that of its
repetition. -/
theorem inTurn_iff_of_steps {f : α → Used → Except Failure Used}
    {F : List α → Used → Except Failure Used}
    (hR : ∀ x used result, R x used result ↔ result = f x used)
    (hnil : ∀ used, F [] used = .ok used)
    (hcons : ∀ x xs used, F (x :: xs) used = f x used >>= F xs) :
    InTurn R xs used result ↔ result = F xs used := by
  induction xs generalizing used with
  | nil => rw [inTurn_nil_iff, hnil]
  | cons x xs ih =>
      rw [inTurn_cons_iff, hcons]
      simp only [hR, ih]
      cases hf : f x used with
      | ok used' => simp [bind, Except.bind]
      | error e => simp [bind, Except.bind]

end InTurn

namespace Used

/-- The more is recorded, the less can still be. -/
theorem room_anti {used used' : Used} (all : List Usr)
    (hle : ∀ r, used.Has r → used'.Has r) : used'.room all ≤ used.room all := by
  have htypedefs := NameSet.missing_anti all fun usr => hle (.typedef usr)
  have hstructs := NameSet.missing_anti all fun usr => hle (.struct usr)
  have henums := NameSet.missing_anti all fun usr => hle (.enum usr)
  have hunions := NameSet.missing_anti all fun usr => hle (.union usr)
  have hobjc := NameSet.missing_anti all fun usr => hle (.interface usr)
  -- The five sets are counted one by one.
  unfold room
  omega

end Used

namespace Pending

/-- No pending reference weighs more than all. -/
theorem weight_le_total {q : Pending} : ∀ {ps : List Pending}, q ∈ ps → q.weight ≤ total ps
  | p :: ps, h => by
      rw [total_cons]
      rcases List.mem_cons.1 h with rfl | h
      · exact Nat.le_add_right _ _
      · exact Nat.le_trans (weight_le_total h) (Nat.le_add_left _ _)

end Pending

namespace Table

variable {table : Table} {context : String}

/-! ## §2. Walks. -/

/-- The walk through a reference: look at it, then walk through what it leads
to. -/
inductive Walks (table : Table) (context : String) :
    Pending → Used → Except Failure Used → Prop where
  | through {p : Pending} {ps : List Pending} {used used' : Used}
      {result : Except Failure Used} (looked : table.visit context p used = .ok (ps, used'))
      (inside : InTurn (Walks table context) ps used' result) : Walks table context p used result
  | fail {p : Pending} {used : Used} {e : Failure}
      (looked : table.visit context p used = .error e) : Walks table context p used (.error e)

/-- Inside the walk through `c.1`, with `c.2` recorded, the walk through `c'.1`
begins with `c'.2` recorded.  The walks before it have ended. -/
inductive Calls (table : Table) (context : String) : Pending × Used → Pending × Used → Prop where
  | mk {p q : Pending} {before after : List Pending} {used used' used₁ : Used}
      (looked : table.visit context p used = .ok (before ++ q :: after, used'))
      (ended : InTurn (table.Walks context) before used' (.ok used₁)) :
      Calls table context (p, used) (q, used₁)

/-- A walk through a reference is a walk through what it leads to. -/
theorem walks_iff_of_visit {p : Pending} {ps : List Pending} {used used' : Used}
    {result : Except Failure Used} (h : table.visit context p used = .ok (ps, used')) :
    table.Walks context p used result ↔ InTurn (table.Walks context) ps used' result := by
  constructor
  · intro hw
    cases hw with
    | through looked inside =>
        cases h.symm.trans looked
        exact inside
    | fail looked => cases h.symm.trans looked
  · exact .through h

/-- A walk ends where a visit fails. -/
theorem walks_iff_of_error {p : Pending} {used : Used} {e : Failure}
    {result : Except Failure Used} (h : table.visit context p used = .error e) :
    table.Walks context p used result ↔ result = .error e := by
  constructor
  · intro hw
    cases hw with
    | through looked inside => cases h.symm.trans looked
    | fail looked =>
        cases h.symm.trans looked
        rfl
  · rintro rfl
    exact .fail h

/-- **Walks in turn have the result of the search** that keeps a list of what is
pending, and no other. -/
theorem inTurn_walks_iff (todo : List Pending) (used : Used) (result : Except Failure Used) :
    InTurn (table.Walks context) todo used result ↔ result = table.follow context todo used := by
  refine follow_induction table context (motive := fun todo used => ∀ result,
    InTurn (table.Walks context) todo used result ↔ result = table.follow context todo used)
    ?done ?step todo used result
  case done =>
    intro used result
    rw [inTurn_nil_iff, Table.follow]
  case step =>
    intro p rest used ih result
    rw [follow_cons, inTurn_cons_iff]
    cases hv : table.visit context p used with
    | error e =>
        simp only [walks_iff_of_error hv]
        simp [bind, Except.bind]
    | ok step =>
        obtain ⟨ps, used'⟩ := step
        -- What is found inside goes in front of what is pending.
        simp only [walks_iff_of_visit hv]
        exact inTurn_append_iff.symm.trans (ih ps used' hv result)

/-- **The walks are what the search computes.** -/
theorem walks_iff (p : Pending) (used : Used) (result : Except Failure Used) :
    table.Walks context p used result ↔ result = table.follow context [p] used := by
  rw [follow_cons]
  cases hv : table.visit context p used with
  | error e => exact walks_iff_of_error hv
  | ok step =>
      obtain ⟨ps, used'⟩ := step
      rw [walks_iff_of_visit hv, inTurn_walks_iff]
      simp only [bind, Except.bind, List.append_nil]

/-! ## §3. Walks inside walks. -/

/-- **A walk inside a walk** is through a part of the type, or follows the
recording of a USR of the table; and nothing is forgotten before it begins. -/
theorem calls_cases {p q : Pending} {used used' : Used}
    (h : table.Calls context (p, used) (q, used')) :
    (∀ r, used.Has r → used'.Has r) ∧
      ((∃ t, p = .type t ∧ q ∈ t.parts ∧ q.weight < p.weight) ∨
        ∃ r ps, p.Is table r ∧ r.Opens table ps ∧ q ∈ ps ∧ r.usr ∈ table.usrs ∧
          ¬ used.Has r ∧ used'.Has r) := by
  cases h with
  | @mk _ _ before after _ used₁ _ looked ended =>
      -- The walks before it have only added to what is recorded.
      have hmono := (follows_of_follow ((inTurn_walks_iff _ _ _).1 ended).symm).has_mono
      have hq : q ∈ before ++ q :: after := List.mem_append_right _ List.mem_cons_self
      generalize before ++ q :: after = ps at looked hq
      rcases visit_cases looked with ⟨rfl, _⟩ | ⟨r, is, new, opens, rfl⟩ | ⟨t, rfl, rfl, rfl⟩
      · -- What was recorded before leads to nothing.
        cases hq
      · refine ⟨fun r' hr' => hmono r' (Used.has_record.2 (.inr hr')), .inr ?_⟩
        refine ⟨r, ps, is, opens, hq, ?_, new, hmono r (Used.has_record.2 (.inl rfl))⟩
        cases opens with
        | typedef found _ | struct found _ _ | union found _ | enum found _
        | interface found _ => exact mem_usrs_of_find found
      · have hweight := Nat.lt_of_le_of_lt (Pending.weight_le_total hq) t.total_parts_lt
        exact ⟨hmono, .inl ⟨t, rfl, hq, hweight⟩⟩

/-- **Walks are not nested for ever**: there is less room after a recording, and
otherwise the type is smaller. -/
theorem wellFounded_calls (table : Table) (context : String) :
    WellFounded fun c c' => table.Calls context c' c := by
  let size (c : Pending × Used) : Nat ×ₗ Nat := toLex (c.2.room table.usrs, c.1.weight)
  refine Subrelation.wf (r := InvImage (· < ·) size) ?_ (InvImage.wf size wellFounded_lt)
  rintro ⟨q, used'⟩ ⟨p, used⟩ h
  -- The walks before it can only have taken room, so that comes first.
  obtain ⟨hmono, ⟨t, _, _, hweight⟩ | ⟨r, ps, _, opens, _, _, new, has⟩⟩ := calls_cases h
  · have hroom := Used.room_anti table.usrs hmono
    exact Prod.Lex.toLex_lt_toLex.2 (hroom.lt_or_eq.imp id fun heq => ⟨heq, hweight⟩)
  · have hrecord : ∀ r', (used.record r).Has r' → used'.Has r' := fun r' hr' => by
      rcases Used.has_record.1 hr' with rfl | hr'
      · exact has
      · exact hmono r' hr'
    have hroom := Used.room_anti table.usrs hrecord
    exact Prod.Lex.toLex_lt_toLex.2 (.inl (Nat.lt_of_le_of_lt hroom (room_record_lt opens new)))

/-! ## §4. The whole search. -/

/-- The signatures of methods in turn, and in each its types. -/
def WalksMethods (table : Table) (owner : String) :
    List Method → Used → Except Failure Used → Prop :=
  InTurn fun m used result =>
    InTurn (table.Walks (owner ++ " " ++ m.selector)) (m.types.map .type) used result

/-- The containers of the table in turn: each is recorded, then its methods
follow. -/
def Collects (table : Table) (result : Except Failure Used) : Prop :=
  InTurn (fun d used result =>
      table.WalksMethods d.displayName d.methods (used.record (.interface d.usr)) result)
    (table.definitions.filter Decl.isContainer) {} result

/-- The walks through methods are what the search computes. -/
theorem walksMethods_iff (owner : String) (ms : List Method) (used : Used)
    (result : Except Failure Used) :
    table.WalksMethods owner ms used result ↔ result = table.followMethods owner ms used := by
  refine inTurn_iff_of_steps (fun m => inTurn_walks_iff (m.types.map .type)) ?_ ?_
  · exact fun used => by rw [followMethods]
  · intro m ms used
    rw [followMethods]
    cases table.follow (owner ++ " " ++ m.selector) (m.types.map .type) used <;> rfl

/-- **The walk through all containers is the search itself.** -/
theorem collects_iff (result : Except Failure Used) :
    table.Collects result ↔ result = table.used := by
  refine inTurn_iff_of_steps (fun d used => walksMethods_iff _ _ (used.record (.interface d.usr)))
    ?_ ?_
  · exact fun used => by rw [followContainers]
  · intro d ds used
    have hrecord : used.record (.interface d.usr)
        = { used with objc := NameSet.add d.usr used.objc } := rfl
    rw [followContainers, hrecord]
    cases table.followMethods d.displayName d.methods _ <;> rfl

/-- **The search of every table ends**, whatever its declarations lead back to.
Walks are not nested for ever, since each one inside another is through a
smaller type or begins after a USR of the table was recorded for the first time;
every walk has one result, and so has the search, a failure or what is in
use. -/
theorem search_ends (table : Table) :
    (∀ context, WellFounded fun c c' => table.Calls context c' c) ∧
    (∀ context p used q used', table.Calls context (p, used) (q, used') →
      (∀ r, used.Has r → used'.Has r) ∧
        ((∃ t, p = .type t ∧ q ∈ t.parts ∧ q.weight < p.weight) ∨
          ∃ r ps, p.Is table r ∧ r.Opens table ps ∧ q ∈ ps ∧ r.usr ∈ table.usrs ∧
            ¬ used.Has r ∧ used'.Has r)) ∧
    (∀ context p used, ∃! result, table.Walks context p used result) ∧
    (∃! result, table.Collects result) ∧ table.Collects table.used := by
  refine ⟨table.wellFounded_calls, fun _ _ _ _ _ => calls_cases, ?_, ?_, ?_⟩
  · intro context p used
    exact ⟨_, (walks_iff p used _).2 rfl, fun _ => (walks_iff p used _).1⟩
  · exact ⟨_, (collects_iff _).2 rfl, fun _ => (collects_iff _).1⟩
  · exact (collects_iff _).2 rfl

end Table

/-- A typedef of itself, two structs that hold each other, an enum whose integer
type is the enum, and two classes below each other. -/
def knotTable : Table where
  definitions :=
    [.implicit "t:Knot" "Knot" (.typedef (.ofName "Knot")),
     .implicit "s:Left" "Left" (.record
       [.implicit "other" "other" (.field (.record "s:Right") none),
        .implicit "self" "self" (.field (.pointer (.record "s:Left")) none)] .struct),
     .implicit "s:Right" "Right" (.record
       [.implicit "other" "other" (.field (.record "s:Left") none)] .struct),
     .implicit "e:Turn" "Turn" (.enum (some (.enum "e:Turn")) false []),
     .implicit "c:Under" "Under" (.interface
       [.ofMethod "tie:turn:" [.ofName "Knot", .enum "e:Turn"] (.record "s:Left")] []
       (some "c:Over") []),
     .implicit "c:Over" "Over" (.interface
       [.ofMethod "under" [] (.objectPointer (.object none (some "c:Under") [] []))] []
       (some "c:Under") [])]

example : knotTable.used = .ok
    { typedefs := ["t:Knot"], structs := ["s:Left", "s:Right"], enums := ["e:Turn"]
      objc := ["c:Over", "c:Under"] } := by
  cbv

end ObjcBindings
