/-
  ObjcBindings.Proofs.ReferenceClosure
  ────────────────────────────────
  **WHAT IS IN USE IS CLOSED UNDER REFERENCE.**

  A search is a run of five steps (`Runs`): nothing is left, a reference is
  known, a new reference is recorded and opened, a type is taken apart, or the
  search is stuck.  An accepted search takes only the first four (`Follows`).
  From the steps alone follows, by induction on the run:

    • `Follows.has_mono` — nothing that is recorded is forgotten,
    • `Follows.accepts`  — every reference inside the pending types is recorded,
                           and nothing among them is out of place,
    • `Follows.opened`   — what was recorded on the way has been opened, and
                           everything it leads to is accepted.

  The whole search is a row of such runs (`Surveys`), one for each signature.
  So `covers_signature` and `covers_of_opens` close the set `Table.used` finds:
  the signatures of every defined container are covered, and with a typedef,
  record or enum everything that its declaration refers to.
-/
import ObjcBindings.Symbol.Reach
import Mathlib.Tactic.Common

namespace ObjcBindings

open Text (NameSet)

/-! ## §1. References that are recorded. -/

/-- A reference as it is recorded, by the kind of its declaration. -/
inductive Ref where
  | typedef (usr : Usr)
  | struct (usr : Usr)
  | union (usr : Usr)
  | enum (usr : Usr)
  | interface (usr : Usr)
  deriving DecidableEq

namespace Used

/-- The reference is recorded. -/
def Has (used : Used) : Ref → Prop
  | .typedef usr => usr ∈ used.typedefs
  | .struct usr => usr ∈ used.structs
  | .union usr => usr ∈ used.unions
  | .enum usr => usr ∈ used.enums
  | .interface usr => usr ∈ used.objc

/-- Record a reference. -/
def record (used : Used) : Ref → Used
  | .typedef usr => { used with typedefs := NameSet.add usr used.typedefs }
  | .struct usr => { used with structs := NameSet.add usr used.structs }
  | .union usr => { used with unions := NameSet.add usr used.unions }
  | .enum usr => { used with enums := NameSet.add usr used.enums }
  | .interface usr => { used with objc := NameSet.add usr used.objc }

/-- Recording adds one reference and keeps the others. -/
@[simp] theorem has_record {used : Used} {r r' : Ref} :
    (used.record r).Has r' ↔ r' = r ∨ used.Has r' := by
  cases r <;> cases r' <;> simp [record, Has, NameSet.mem_add]

end Used

/-! ## §2. What a reference is, and what it leads to. -/

/-- The pending reference is `r` itself. -/
inductive Pending.Is (table : Table) : Pending → Ref → Prop where
  | typedef (name : String) (usr : Usr) : Is table (.type (.typedef name usr)) (.typedef usr)
  | struct {usr : Usr} {d : Decl} {fields : List Decl} {tag : TagKind}
      (found : table.find usr = .ok d) (kind : d.kind = .record fields tag)
      (tagged : tag ≠ .union) : Is table (.type (.record usr)) (.struct usr)
  | union {usr : Usr} {d : Decl} {fields : List Decl}
      (found : table.find usr = .ok d) (kind : d.kind = .record fields .union) :
      Is table (.type (.record usr)) (.union usr)
  | enum (usr : Usr) : Is table (.type (.enum usr)) (.enum usr)
  | interface (usr : Usr) : Is table (.interface usr) (.interface usr)

/-- The declaration of `r` leads to these references, in order. -/
inductive Ref.Opens (table : Table) : Ref → List Pending → Prop where
  | typedef {usr : Usr} {d : Decl} {type : TypeExpr}
      (found : table.find usr = .ok d) (kind : d.kind = .typedef type) :
      Opens table (.typedef usr) [.type type]
  | struct {usr : Usr} {d : Decl} {fields : List Decl} {tag : TagKind}
      (found : table.find usr = .ok d) (kind : d.kind = .record fields tag)
      (tagged : tag ≠ .union) : Opens table (.struct usr) ((fieldTypes fields).map .type)
  | union {usr : Usr} {d : Decl} {fields : List Decl}
      (found : table.find usr = .ok d) (kind : d.kind = .record fields .union) :
      Opens table (.union usr) ((fieldTypes fields).map .type)
  | enum {usr : Usr} {d : Decl} {integerType : Option TypeExpr} {isClosed : Bool}
      {enumerators : List Decl} (found : table.find usr = .ok d)
      (kind : d.kind = .enum integerType isClosed enumerators) :
      Opens table (.enum usr) (integerType.toList.map .type)
  | interface {usr : Usr} {d : Decl} {children : List Decl} {protocols : List String}
      {superclass : Option Usr} {typeParams : List String} (found : table.find usr = .ok d)
      (kind : d.kind = .interface children protocols superclass typeParams) :
      Opens table (.interface usr) (superclass.toList.map .interface)

/-- The pending reference is `r`, or `r` stands inside it. -/
inductive Pending.Refers (table : Table) : Pending → Ref → Prop where
  | self {p : Pending} {r : Ref} (is : p.Is table r) : Refers table p r
  | part {t : TypeExpr} {q : Pending} {r : Ref} (inside : q ∈ t.parts)
      (refers : Refers table q r) : Refers table (.type t) r

/-- Everything that a pending reference refers to is recorded. -/
def Used.Covers (table : Table) (used : Used) (p : Pending) : Prop :=
  ∀ r, p.Refers table r → used.Has r

/-- A pending reference is one reference only. -/
theorem Pending.Is.unique {table : Table} {p : Pending} {r r' : Ref}
    (h : p.Is table r) (h' : p.Is table r') : r = r' := by
  cases h <;> cases h' <;> simp_all

/-- A reference leads to one list only. -/
theorem Ref.Opens.unique {table : Table} {r : Ref} {ps ps' : List Pending}
    (h : r.Opens table ps) (h' : r.Opens table ps') : ps = ps' := by
  cases h <;> cases h' <;> simp_all

/-- What is a reference itself has nothing inside. -/
theorem Pending.Is.refers {table : Table} {p : Pending} {r r' : Ref}
    (h : p.Is table r) (h' : p.Refers table r') : r' = r := by
  cases h' with
  | self is => exact is.unique h
  | part inside _ => cases h <;> simp [TypeExpr.parts] at inside

/-- A reference is covered once it is recorded. -/
theorem Used.covers_of_is {table : Table} {used : Used} {p : Pending} {r : Ref}
    (h : p.Is table r) (hr : used.Has r) : used.Covers table p := by
  intro r' hr'
  rw [h.refers hr']
  exact hr

/-- With a type its parts are covered. -/
theorem Used.Covers.of_part {table : Table} {used : Used} {t : TypeExpr} {q : Pending}
    (h : used.Covers table (.type t)) (hq : q ∈ t.parts) : used.Covers table q :=
  fun r hr => h r (.part hq hr)

/-- The type is a reference to a declaration. -/
def TypeExpr.isReference : TypeExpr → Bool
  | .typedef _ _ | .record _ | .enum _ => true
  | _ => false

/-- The type has no place in a signature. -/
def TypeExpr.isForeign : TypeExpr → Bool
  | .vector _ _ | .extVector _ _ | .unknown => true
  | _ => false

/-- The pending reference is out of place, or such a one stands inside it: a
type that has no place in a signature, or a record reference that leads to no
record. -/
inductive Pending.HasStray (table : Table) : Pending → Prop where
  | foreign {t : TypeExpr} (foreign : t.isForeign = true) : HasStray table (.type t)
  | record {usr : Usr}
      (wrong : ∀ d fields tag, table.find usr = .ok d → d.kind ≠ .record fields tag) :
      HasStray table (.type (.record usr))
  | part {t : TypeExpr} {q : Pending} (inside : q ∈ t.parts) (stray : HasStray table q) :
      HasStray table (.type t)

/-- A reference is not out of place, and has nothing inside. -/
theorem Pending.Is.not_hasStray {table : Table} {p : Pending} {r : Ref} (h : p.Is table r) :
    ¬ p.HasStray table := by
  intro hstray
  cases hstray with
  | foreign foreign => cases h <;> simp [TypeExpr.isForeign] at foreign
  | record wrong =>
      cases h with
      | struct found kind _ => exact wrong _ _ _ found kind
      | union found kind => exact wrong _ _ _ found kind
  | part inside _ => cases h <;> simp [TypeExpr.parts] at inside

/-- Everything that a pending reference refers to is recorded, and nothing
inside it is out of place. -/
structure Used.Accepts (table : Table) (used : Used) (p : Pending) : Prop where
  covers : used.Covers table p
  proper : ¬ p.HasStray table

/-- With a type its parts are accepted. -/
theorem Used.Accepts.of_part {table : Table} {used : Used} {t : TypeExpr} {q : Pending}
    (h : used.Accepts table (.type t)) (hq : q ∈ t.parts) : used.Accepts table q :=
  ⟨h.covers.of_part hq, fun hstray => h.proper (.part hq hstray)⟩

/-- What is accepted stays accepted when more is recorded. -/
theorem Used.Accepts.mono {table : Table} {used used' : Used} {p : Pending}
    (h : used.Accepts table p) (hle : ∀ r, used.Has r → used'.Has r) : used'.Accepts table p :=
  ⟨fun r hr => hle r (h.covers r hr), h.proper⟩

/-! ## §3. Runs of the search. -/

/-- The search cannot go on with the pending reference: what it leads to is
missing or of another kind, or the type is out of place. -/
inductive Pending.Stuck (table : Table) : Pending → Prop where
  | typedef {name : String} {usr : Usr}
      (wrong : ∀ d type, table.find usr = .ok d → d.kind ≠ .typedef type) :
      Stuck table (.type (.typedef name usr))
  | record {usr : Usr}
      (wrong : ∀ d fields tag, table.find usr = .ok d → d.kind ≠ .record fields tag) :
      Stuck table (.type (.record usr))
  | enum {usr : Usr}
      (wrong : ∀ d integerType isClosed enumerators, table.find usr = .ok d →
        d.kind ≠ .enum integerType isClosed enumerators) : Stuck table (.type (.enum usr))
  | interface {usr : Usr} (wrong : ∀ d, table.find usr = .ok d → d.isInterface = false) :
      Stuck table (.interface usr)
  | foreign {t : TypeExpr} (foreign : t.isForeign = true) : Stuck table (.type t)

/-- A search for the pending references, from what is recorded before it to
its result. -/
inductive Table.Runs (table : Table) : List Pending → Used → Except Failure Used → Prop where
  | done {used : Used} : Runs table [] used (.ok used)
  | known {p : Pending} {r : Ref} {rest : List Pending} {used : Used}
      {result : Except Failure Used} (is : p.Is table r) (has : used.Has r)
      (after : Runs table rest used result) : Runs table (p :: rest) used result
  | enter {p : Pending} {r : Ref} {ps rest : List Pending} {used : Used}
      {result : Except Failure Used} (is : p.Is table r) (new : ¬ used.Has r)
      (opens : r.Opens table ps) (after : Runs table (ps ++ rest) (used.record r) result) :
      Runs table (p :: rest) used result
  | descend {t : TypeExpr} {rest : List Pending} {used : Used} {result : Except Failure Used}
      (plain : t.isReference = false) (supported : t.isForeign = false)
      (after : Runs table (t.parts ++ rest) used result) :
      Runs table (.type t :: rest) used result
  | stuck {p : Pending} {rest : List Pending} {used : Used} {e : Failure}
      (stuck : p.Stuck table) : Runs table (p :: rest) used (.error e)

namespace Table

variable {table : Table} {context : String} {p : Pending} {r : Ref} {rest : List Pending}
  {used : Used}

/-- A reference that is recorded is passed over. -/
theorem follow_of_known (is : p.Is table r) (has : used.Has r) :
    table.follow context (p :: rest) used = table.follow context rest used := by
  cases is <;> simp only [Used.Has] at has
  case typedef name usr => rw [follow, if_pos has]
  case enum usr => rw [follow, if_pos has]
  case interface usr => rw [follow, if_pos has]
  case struct found kind tagged =>
    rw [follow]
    grind
  case union found kind =>
    rw [follow]
    grind

/-- A reference that is new is recorded, and what its declaration leads to is
pending. -/
theorem follow_of_new {ps : List Pending} (is : p.Is table r) (new : ¬ used.Has r)
    (opens : r.Opens table ps) :
    table.follow context (p :: rest) used = table.follow context (ps ++ rest) (used.record r) := by
  -- The declaration that is opened is the one that the search finds.
  cases is <;> cases opens <;> simp only [Used.Has] at new
  case typedef.typedef =>
    rw [follow, if_neg new]
    grind [Used.record]
  case enum.enum =>
    rw [follow, if_neg new]
    grind [Used.record]
  case interface.interface =>
    rw [follow, if_neg new]
    grind [Used.record]
  case struct.struct =>
    rw [follow]
    grind [Used.record]
  case union.union =>
    rw [follow]
    grind [Used.record]

/-- The search ends where it is stuck. -/
theorem exists_error_of_stuck (stuck : p.Stuck table)
    (new : ∀ r, p.Is table r → ¬ used.Has r) :
    ∃ e, table.follow context (p :: rest) used = .error e := by
  -- The look-up fails, or finds a declaration of another kind.
  cases stuck with
  | typedef wrong =>
      rw [follow, if_neg (show _ ∉ used.typedefs from new _ (.typedef _ _))]
      split
      · exact ⟨_, rfl⟩
      · next d found =>
        split
        · next type kind => exact absurd kind (wrong d type found)
        · exact ⟨_, rfl⟩
  | record wrong =>
      rw [follow]
      split
      · exact ⟨_, rfl⟩
      · next d found =>
        split
        · next kind => exact absurd kind (wrong d _ _ found)
        · next kind => exact absurd kind (wrong d _ _ found)
        · exact ⟨_, rfl⟩
  | enum wrong =>
      rw [follow, if_neg (show _ ∉ used.enums from new _ (.enum _))]
      split
      · exact ⟨_, rfl⟩
      · next d found =>
        split
        · next kind => exact absurd kind (wrong d _ _ _ found)
        · exact ⟨_, rfl⟩
  | interface wrong =>
      rw [follow, if_neg (show _ ∉ used.objc from new _ (.interface _))]
      split
      · exact ⟨_, rfl⟩
      · next d found =>
        have hother := wrong d found
        unfold Decl.isInterface at hother
        split
        · next kind => simp [kind] at hother
        · exact ⟨_, rfl⟩
  | @foreign t foreign =>
      cases t <;> simp only [TypeExpr.isForeign, Bool.false_eq_true] at foreign
      all_goals
        rw [follow]
        exact ⟨_, rfl⟩

/-- A type of another form is taken apart. -/
theorem follow_of_plain {t : TypeExpr} (plain : t.isReference = false)
    (supported : t.isForeign = false) :
    table.follow context (.type t :: rest) used = table.follow context (t.parts ++ rest) used := by
  rw [follow]
  -- The type has none of the forms that come first.
  all_goals
    intros
    subst t
    simp [TypeExpr.isReference, TypeExpr.isForeign] at plain supported

/-- From a reference that is recorded the search runs on. -/
theorem runs_of_known (is : p.Is table r) (has : used.Has r)
    (after : table.Runs rest used (table.follow context rest used)) :
    table.Runs (p :: rest) used (table.follow context (p :: rest) used) := by
  rw [follow_of_known is has]
  exact .known is has after

/-- From a new reference it runs on with what that leads to. -/
theorem runs_of_new {ps : List Pending} (is : p.Is table r) (new : ¬ used.Has r)
    (opens : r.Opens table ps)
    (after : table.Runs (ps ++ rest) (used.record r)
      (table.follow context (ps ++ rest) (used.record r))) :
    table.Runs (p :: rest) used (table.follow context (p :: rest) used) := by
  rw [follow_of_new is new opens]
  exact .enter is new opens after

/-- Where it is stuck the run ends. -/
theorem runs_of_stuck (stuck : p.Stuck table) (new : ∀ r, p.Is table r → ¬ used.Has r) :
    table.Runs (p :: rest) used (table.follow context (p :: rest) used) := by
  obtain ⟨e, he⟩ := exists_error_of_stuck stuck new
  rw [he]
  exact .stuck stuck

/-- The search is stuck at a type that has no place in a signature. -/
theorem runs_of_foreign {t : TypeExpr} (foreign : t.isForeign = true) :
    table.Runs (.type t :: rest) used (table.follow context (.type t :: rest) used) := by
  refine runs_of_stuck (.foreign foreign) fun r is => ?_
  cases is <;> cases foreign

/-- **The search takes these steps and no others.** -/
theorem runs_follow (table : Table) (context : String) (todo : List Pending) (used : Used) :
    table.Runs todo used (table.follow context todo used) := by
  -- One case for each branch of the search, in its order.
  refine follow.induct table (fun todo used => table.Runs todo used (table.follow context todo used))
    ?done ?interfaceKnown ?interfaceMissing ?interface ?noInterface ?typedefKnown
    ?typedefMissing ?typedef ?noTypedef ?recordMissing ?unionKnown ?union ?structKnown ?struct
    ?noRecord ?enumKnown ?enumMissing ?enum ?noEnum ?vector ?extVector ?unknown ?plain todo used
  case done =>
    intro used
    rw [follow]
    exact .done
  case interfaceKnown =>
    intro used usr rest has ih
    exact runs_of_known (.interface usr) has ih
  case interfaceMissing =>
    intro used usr rest new e missing
    refine runs_of_stuck (.interface (by simp [missing])) fun r is => ?_
    cases is
    exact new
  case interface =>
    intro used usr rest new d found children protocols superclass typeParams kind ih
    exact runs_of_new (.interface usr) new (.interface found kind) ih
  case noInterface =>
    intro used usr rest new d found other
    refine runs_of_stuck (.interface fun d' found' => ?_) fun r is => ?_
    · rw [found] at found'
      cases found'
      unfold Decl.isInterface
      split
      · next kind => exact (other _ _ _ _ kind).elim
      · rfl
    · cases is
      exact new
  case typedefKnown =>
    intro used name usr rest has ih
    exact runs_of_known (.typedef name usr) has ih
  case typedefMissing =>
    intro used name usr rest new e missing
    refine runs_of_stuck (.typedef (by simp [missing])) fun r is => ?_
    cases is
    exact new
  case typedef =>
    intro used name usr rest new d found type kind ih
    exact runs_of_new (.typedef name usr) new (.typedef found kind) ih
  case noTypedef =>
    intro used name usr rest new d found other
    refine runs_of_stuck (.typedef (by grind)) fun r is => ?_
    cases is
    exact new
  case recordMissing =>
    intro used usr rest e missing
    refine runs_of_stuck (.record (by simp [missing])) fun r is => ?_
    cases is <;> simp_all
  case unionKnown =>
    intro used usr rest d found fields kind has ih
    exact runs_of_known (.union found kind) has ih
  case union =>
    intro used usr rest d found fields kind new ih
    exact runs_of_new (.union found kind) new (.union found kind) ih
  case structKnown =>
    intro used usr rest d found fields tag tagged kind has ih
    exact runs_of_known (.struct found kind tagged) has ih
  case struct =>
    intro used usr rest d found fields tag tagged kind new ih
    exact runs_of_new (.struct found kind tagged) new (.struct found kind tagged) ih
  case noRecord =>
    intro used usr rest d found other other'
    have wrong : ∀ d fields tag, table.find usr = .ok d → d.kind ≠ .record fields tag := by grind
    refine runs_of_stuck (.record wrong) fun r is => ?_
    cases is with
    | struct found kind _ => exact absurd kind (wrong _ _ _ found)
    | union found kind => exact absurd kind (wrong _ _ _ found)
  case enumKnown =>
    intro used usr rest has ih
    exact runs_of_known (.enum usr) has ih
  case enumMissing =>
    intro used usr rest new e missing
    refine runs_of_stuck (.enum (by simp [missing])) fun r is => ?_
    cases is
    exact new
  case enum =>
    intro used usr rest new d found integerType isClosed enumerators kind ih
    exact runs_of_new (.enum usr) new (.enum found kind) ih
  case noEnum =>
    intro used usr rest new d found other
    refine runs_of_stuck (.enum (by grind)) fun r is => ?_
    cases is
    exact new
  case vector =>
    intro used element lanes rest
    exact runs_of_foreign rfl
  case extVector =>
    intro used element lanes rest
    exact runs_of_foreign rfl
  case unknown =>
    intro used rest
    exact runs_of_foreign rfl
  case plain =>
    intro used t rest noTypedef noRecord noEnum noVector noExtVector noUnknown ih
    have plain : t.isReference = false := by cases t <;> simp_all [TypeExpr.isReference]
    have supported : t.isForeign = false := by cases t <;> simp_all [TypeExpr.isForeign]
    rw [follow_of_plain plain supported]
    exact .descend plain supported ih

end Table

/-- An accepted search for the pending references, from what is recorded
before it to what is recorded after it. -/
inductive Table.Follows (table : Table) : List Pending → Used → Used → Prop where
  | done {used : Used} : Follows table [] used used
  | known {p : Pending} {r : Ref} {rest : List Pending} {used used' : Used}
      (is : p.Is table r) (has : used.Has r) (after : Follows table rest used used') :
      Follows table (p :: rest) used used'
  | enter {p : Pending} {r : Ref} {ps rest : List Pending} {used used' : Used}
      (is : p.Is table r) (new : ¬ used.Has r) (opens : r.Opens table ps)
      (after : Follows table (ps ++ rest) (used.record r) used') :
      Follows table (p :: rest) used used'
  | descend {t : TypeExpr} {rest : List Pending} {used used' : Used}
      (plain : t.isReference = false) (supported : t.isForeign = false)
      (after : Follows table (t.parts ++ rest) used used') :
      Follows table (.type t :: rest) used used'

/-- **An accepted search is never stuck.** -/
theorem Table.Runs.follows {table : Table} {todo : List Pending} {used used' : Used}
    {result : Except Failure Used} (h : table.Runs todo used result) :
    result = .ok used' → table.Follows todo used used' := by
  induction h with
  | done =>
      intro hok
      injection hok with hok
      exact hok ▸ .done
  | known is has _ ih => exact fun hok => .known is has (ih hok)
  | enter is new opens _ ih => exact fun hok => .enter is new opens (ih hok)
  | descend plain supported _ ih => exact fun hok => .descend plain supported (ih hok)
  | stuck _ => intro hok; cases hok

/-- A search that ends well is an accepted one. -/
theorem Table.follows_of_follow {table : Table} {context : String} {todo : List Pending}
    {used used' : Used} (h : table.follow context todo used = .ok used') :
    table.Follows todo used used' :=
  (table.runs_follow context todo used).follows h

/-! ## §4. What a run records. -/

namespace Table

/-- **What each recording keeps, a run keeps.** -/
theorem Follows.keeps {P : Used → Prop} (hrecord : ∀ used r, P used → P (used.record r))
    {table : Table} {todo : List Pending} {used used' : Used}
    (h : table.Follows todo used used') : P used → P used' := by
  induction h with
  | done => exact id
  | known _ _ _ ih => exact ih
  | @enter _ r _ _ used _ _ _ _ _ ih => exact fun hused => ih (hrecord used r hused)
  | descend _ _ _ ih => exact ih

/-- Nothing that is recorded is forgotten. -/
theorem Follows.has_mono {table : Table} {todo : List Pending} {used used' : Used}
    (h : table.Follows todo used used') (r : Ref) : used.Has r → used'.Has r :=
  h.keeps (P := (·.Has r)) fun _ _ hr => Used.has_record.2 (.inr hr)

/-- Every reference inside the pending types is recorded at the end. -/
theorem Follows.covers {table : Table} {todo : List Pending} {used used' : Used}
    (h : table.Follows todo used used') : ∀ p ∈ todo, used'.Covers table p := by
  induction h with
  | done => simp
  | known is has after ih =>
      intro p hp
      rcases List.mem_cons.1 hp with rfl | hp
      · exact Used.covers_of_is is (after.has_mono _ has)
      · exact ih p hp
  | enter is _ _ after ih =>
      intro p hp
      rcases List.mem_cons.1 hp with rfl | hp
      · exact Used.covers_of_is is (after.has_mono _ (Used.has_record.2 (.inl rfl)))
      · exact ih p (List.mem_append_right _ hp)
  | @descend t rest _ _ plain _ _ ih =>
      intro p hp
      rcases List.mem_cons.1 hp with rfl | hp
      · intro r hr
        cases hr with
        -- A type that is no reference has references only in its parts.
        | self is => cases is <;> simp [TypeExpr.isReference] at plain
        | part inside refers => exact ih _ (List.mem_append_left _ inside) r refers
      · exact ih p (List.mem_append_right _ hp)

/-- Nothing inside the pending types is out of place. -/
theorem Follows.proper {table : Table} {todo : List Pending} {used used' : Used}
    (h : table.Follows todo used used') : ∀ p ∈ todo, ¬ p.HasStray table := by
  induction h with
  | done => simp
  | known is _ _ ih =>
      intro p hp
      rcases List.mem_cons.1 hp with rfl | hp
      · exact is.not_hasStray
      · exact ih p hp
  | enter is _ _ _ ih =>
      intro p hp
      rcases List.mem_cons.1 hp with rfl | hp
      · exact is.not_hasStray
      · exact ih p (List.mem_append_right _ hp)
  | descend plain supported _ ih =>
      intro p hp
      rcases List.mem_cons.1 hp with rfl | hp
      · intro hstray
        cases hstray with
        | foreign foreign =>
            rw [supported] at foreign
            cases foreign
        | record _ => cases plain
        | part inside stray => exact ih _ (List.mem_append_left _ inside) stray
      · exact ih p (List.mem_append_right _ hp)

/-- **What is pending is accepted at the end.** -/
theorem Follows.accepts {table : Table} {todo : List Pending} {used used' : Used}
    (h : table.Follows todo used used') : ∀ p ∈ todo, used'.Accepts table p :=
  fun p hp => ⟨h.covers p hp, h.proper p hp⟩

/-- The declaration of `r` is of its kind, and all it leads to is accepted. -/
def Opened (table : Table) (used : Used) (r : Ref) : Prop :=
  ∃ ps, r.Opens table ps ∧ ∀ p ∈ ps, used.Accepts table p

/-- What was opened stays so when more is recorded. -/
theorem Opened.mono {table : Table} {used used' : Used} {r : Ref}
    (h : table.Opened used r) (hle : ∀ r, used.Has r → used'.Has r) :
    table.Opened used' r := by
  obtain ⟨ps, hps, ha⟩ := h
  exact ⟨ps, hps, fun p hp => (ha p hp).mono hle⟩

/-- **What a run records, it has opened.** -/
theorem Follows.opened {table : Table} {todo : List Pending} {used used' : Used}
    (h : table.Follows todo used used') :
    ∀ r, used'.Has r → used.Has r ∨ table.Opened used' r := by
  induction h with
  | done => exact fun _ hr => .inl hr
  | known _ _ _ ih => exact ih
  | enter _ _ opens after ih =>
      intro r hr
      rcases ih r hr with hr | hr
      · rcases Used.has_record.1 hr with rfl | hr
        · -- The entered reference: its parts were pending in the rest of the run.
          exact .inr ⟨_, opens, fun p hp => after.accepts p (List.mem_append_left _ hp)⟩
        · exact .inl hr
      · exact .inr hr
  | descend _ _ _ ih => exact ih

/-! ## §5. Signatures of containers. -/

/-- From one set of recorded references to a later one: nothing is lost, and
new typedefs, records and enums are opened. -/
structure Grows (table : Table) (used used' : Used) : Prop where
  mono : ∀ r, used.Has r → used'.Has r
  opened : ∀ r, used'.Has r →
    used.Has r ∨ table.Opened used' r ∨ ∃ usr, r = .interface usr

/-- Recording nothing loses nothing. -/
theorem Grows.refl (table : Table) (used : Used) : table.Grows used used :=
  ⟨fun _ h => h, fun _ h => .inl h⟩

theorem Grows.trans {table : Table} {u₁ u₂ u₃ : Used} (h : table.Grows u₁ u₂)
    (h' : table.Grows u₂ u₃) : table.Grows u₁ u₃ := by
  refine ⟨fun r hr => h'.mono r (h.mono r hr), ?_⟩
  intro r hr
  rcases h'.opened r hr with hr | hr
  · rcases h.opened r hr with hr | ho | hi
    · exact .inl hr
    · exact .inr (.inl (ho.mono h'.mono))
    · exact .inr (.inr hi)
  · exact .inr hr

/-- A run records nothing that it does not open. -/
theorem Follows.grows {table : Table} {todo : List Pending} {used used' : Used}
    (h : table.Follows todo used used') : table.Grows used used' := by
  refine ⟨h.has_mono, fun r hr => ?_⟩
  rcases h.opened r hr with hr | hr
  · exact .inl hr
  · exact .inr (.inl hr)

/-- Recording a container loses nothing. -/
theorem grows_seed (table : Table) (used : Used) (usr : Usr) :
    table.Grows used (used.record (.interface usr)) := by
  refine ⟨fun r hr => Used.has_record.2 (.inr hr), fun r hr => ?_⟩
  rcases Used.has_record.1 hr with rfl | hr
  · exact .inr (.inr ⟨usr, rfl⟩)
  · exact .inl hr

/-- A row of runs, one for each list of types, between which containers are
recorded. -/
inductive Surveys (table : Table) : List (List TypeExpr) → Used → Used → Prop where
  | done {used : Used} : Surveys table [] used used
  | seed {rows : List (List TypeExpr)} {used used' : Used} (usr : Usr)
      (after : Surveys table rows (used.record (.interface usr)) used') :
      Surveys table rows used used'
  | row {types : List TypeExpr} {rows : List (List TypeExpr)} {used used₁ used' : Used}
      (run : table.Follows (types.map .type) used used₁) (after : Surveys table rows used₁ used') :
      Surveys table (types :: rows) used used'

/-- Two rows of runs are one. -/
theorem Surveys.trans {table : Table} {rows rows' : List (List TypeExpr)} {u₁ u₂ u₃ : Used}
    (h : table.Surveys rows u₁ u₂) (h' : table.Surveys rows' u₂ u₃) :
    table.Surveys (rows ++ rows') u₁ u₃ := by
  induction h with
  | done => exact h'
  | seed usr _ ih => exact .seed usr (ih h')
  | row run _ ih => exact .row run (ih h')

/-- **What each recording keeps, a search keeps.** -/
theorem Surveys.keeps {P : Used → Prop} (hrecord : ∀ used r, P used → P (used.record r))
    {table : Table} {rows : List (List TypeExpr)} {used used' : Used}
    (h : table.Surveys rows used used') : P used → P used' := by
  induction h with
  | done => exact id
  | @seed _ used _ usr _ ih => exact fun hused => ih (hrecord used (.interface usr) hused)
  | row run _ ih => exact fun hused => ih (run.keeps hrecord hused)

/-- Methods are followed one signature after the other. -/
theorem surveys_of_followMethods {table : Table} {owner : String} :
    ∀ {ms : List Method} {used used' : Used},
      table.followMethods owner ms used = .ok used' →
      table.Surveys (ms.map Method.types) used used'
  | [], used, used', h => by
      injection h with h
      exact h ▸ .done
  | m :: ms, used, used', h => by
      rw [followMethods] at h
      split at h
      · cases h
      · next used₁ hm => exact .row (follows_of_follow hm) (surveys_of_followMethods h)

/-- **The whole search is a row of runs**, one for each signature. -/
theorem surveys_of_followContainers {table : Table} :
    ∀ {ds : List Decl} {used used' : Used},
      table.followContainers ds used = .ok used' →
      table.Surveys (ds.flatMap fun d => d.methods.map Method.types) used used'
  | [], used, used', h => by
      injection h with h
      exact h ▸ .done
  | d :: ds, used, used', h => by
      rw [followContainers] at h
      split at h
      · cases h
      · next used₁ hd =>
        have hmethods := surveys_of_followMethods hd
        have hrest := surveys_of_followContainers h
        exact .seed d.usr (hmethods.trans hrest)

/-- A row of runs loses nothing, and opens what it records. -/
theorem Surveys.grows {table : Table} {rows : List (List TypeExpr)} {used used' : Used}
    (h : table.Surveys rows used used') : table.Grows used used' := by
  induction h with
  | done => exact Grows.refl table _
  | seed usr _ ih => exact (grows_seed table _ usr).trans ih
  | row run _ ih => exact run.grows.trans ih

/-- The types of every row are accepted at the end. -/
theorem Surveys.accepts {table : Table} {rows : List (List TypeExpr)} {used used' : Used}
    (h : table.Surveys rows used used') :
    ∀ types ∈ rows, ∀ t ∈ types, used'.Accepts table (.type t) := by
  induction h with
  | done => simp
  | seed _ _ ih => exact ih
  | row run after ih =>
      intro types htypes t ht
      -- What the first row needs is still recorded after the others.
      rcases List.mem_cons.1 htypes with rfl | htypes
      · exact (run.accepts _ (List.mem_map_of_mem ht)).mono after.grows.mono
      · exact ih types htypes t ht

/-- **The signatures of every defined container are covered.** -/
theorem covers_signature {table : Table} {used : Used} (h : table.used = .ok used)
    {d : Decl} (hd : d ∈ table.definitions) (hc : d.isContainer = true)
    {m : Method} (hm : m ∈ d.methods) {t : TypeExpr} (ht : t ∈ m.types) :
    used.Covers table (.type t) := by
  have hrow : m.types ∈ (table.definitions.filter Decl.isContainer).flatMap
      fun d => d.methods.map Method.types :=
    List.mem_flatMap.2 ⟨d, List.mem_filter.2 ⟨hd, hc⟩, List.mem_map_of_mem hm⟩
  exact ((surveys_of_followContainers h).accepts _ hrow t ht).covers

/-- A typedef, record or enum that a search from nothing has recorded was
opened. -/
theorem Surveys.opened {table : Table} {rows : List (List TypeExpr)} {used : Used}
    (h : table.Surveys rows {} used) {r : Ref} (hr : used.Has r)
    (hi : ∀ usr, r ≠ .interface usr) : table.Opened used r := by
  rcases h.grows.opened r hr with hr | ho | ⟨usr, rfl⟩
  · cases r <;> simp [Used.Has] at hr
  · exact ho
  · exact absurd rfl (hi usr)

/-- **With a typedef, record or enum, all it leads to is covered.** -/
theorem covers_of_opens {table : Table} {used : Used} (h : table.used = .ok used)
    {r : Ref} (hr : used.Has r) (hi : ∀ usr, r ≠ .interface usr)
    {ps : List Pending} (hps : r.Opens table ps) : ∀ p ∈ ps, used.Covers table p := by
  obtain ⟨qs, hqs, ha⟩ := (surveys_of_followContainers h).opened hr hi
  rw [hps.unique hqs]
  exact fun p hp => (ha p hp).covers

end Table

end ObjcBindings
