/-
  ObjcBindings.Proofs.ReachedDeclarations
  ────────────────────────────────
  **WHAT IS IN USE IS EXACTLY WHAT SIGNATURES REACH.**

  `Reaches` says which types some signatures lead to, without an order and
  without a record of what was seen:

      a type       leads to the types inside it
      a typedef    leads to the type it names
      a record     leads to the types of its fields
      an enum      leads to its integer type

  An accepted search records these references and no others:

    • `Surveys.accepts_of_reaches` — all that is reached is recorded; the
      induction is on the way it is reached, so circles do no harm,
    • `Surveys.reached`    — all that is recorded is reached,
    • `follow_ok`          — the search fails only at a reached type,
    • `used_exact`         — so `Table.used` is the closure of the signatures,
      whatever order they are followed in, and it succeeds exactly if every
      reached reference leads to a declaration of its kind.
-/
import ObjcBindings.Proofs.ReferenceClosure
import ObjcBindings.Proofs.TableContents
import Mathlib

namespace ObjcBindings

open Text (NameSet)

/-! ## §1. What signatures reach. -/

/-- The types directly inside a type. -/
def TypeExpr.inner : TypeExpr → List TypeExpr
  | .pointer t | .blockPointer t | .decayed t | .objectPointer t | .wrapped _ t
  | .functionNoProto t | .constantArray t _ | .incompleteArray t | .vector t _
  | .extVector t _ => [t]
  | .object base _ _ args => base.toList ++ args
  | .function params result _ => result :: params.map Slot.type
  | .builtin _ | .typedef _ _ | .record _ | .enum _ | .typeParam _ _ | .unknown => []

/-- The types in the signatures of some containers. -/
def signatureTypes (ds : List Decl) : List TypeExpr :=
  ds.flatMap fun d => d.methods.flatMap Method.types

namespace Table

/-- The types in the signatures of the defined containers. -/
def signatures (table : Table) : List TypeExpr :=
  signatureTypes (table.definitions.filter Decl.isContainer)

/-- The type is one of `roots` or is reached from one. -/
inductive Reaches (table : Table) (roots : List TypeExpr) : TypeExpr → Prop where
  | root {t : TypeExpr} (mem : t ∈ roots) : Reaches table roots t
  | inside {t t' : TypeExpr} (reached : Reaches table roots t) (mem : t' ∈ t.inner) :
      Reaches table roots t'
  | typedef {name : String} {usr : Usr} {d : Decl} {type : TypeExpr}
      (reached : Reaches table roots (.typedef name usr)) (found : table.find usr = .ok d)
      (kind : d.kind = .typedef type) : Reaches table roots type
  | record {usr : Usr} {d : Decl} {fields : List Decl} {tag : TagKind} {t : TypeExpr}
      (reached : Reaches table roots (.record usr)) (found : table.find usr = .ok d)
      (kind : d.kind = .record fields tag) (mem : t ∈ fieldTypes fields) : Reaches table roots t
  | enum {usr : Usr} {d : Decl} {t : TypeExpr} {isClosed : Bool} {enumerators : List Decl}
      (reached : Reaches table roots (.enum usr)) (found : table.find usr = .ok d)
      (kind : d.kind = .enum (some t) isClosed enumerators) : Reaches table roots t

/-- A reached object type names the interface, or it stands above one that is
reached. -/
inductive ReachesInterface (table : Table) (roots : List TypeExpr) : Usr → Prop where
  | named {base : Option TypeExpr} {usr : Usr} {protocols : List String}
      {args : List TypeExpr}
      (reached : table.Reaches roots (.object base (some usr) protocols args)) :
      ReachesInterface table roots usr
  | above {usr superclass : Usr} {d : Decl} {children : List Decl}
      {protocols typeParams : List String} (below : ReachesInterface table roots usr)
      (found : table.find usr = .ok d)
      (kind : d.kind = .interface children protocols (some superclass) typeParams) :
      ReachesInterface table roots superclass

/-- Every reached interface is declared as one. -/
def ResolvesInterfaces (table : Table) (roots : List TypeExpr) : Prop :=
  ∀ usr, table.ReachesInterface roots usr →
    ∃ d, table.find usr = .ok d ∧ d.isInterface = true

/-- Every reached reference leads to a declaration of its kind, and no reached
type is out of place. -/
structure Resolves (table : Table) (roots : List TypeExpr) : Prop where
  typedefs : ∀ name usr, table.Reaches roots (.typedef name usr) →
    ∃ d type, table.find usr = .ok d ∧ d.kind = .typedef type
  records : ∀ usr, table.Reaches roots (.record usr) →
    ∃ d fields tag, table.find usr = .ok d ∧ d.kind = .record fields tag
  enums : ∀ usr, table.Reaches roots (.enum usr) →
    ∃ d integerType isClosed enumerators,
      table.find usr = .ok d ∧ d.kind = .enum integerType isClosed enumerators
  native : ∀ t, table.Reaches roots t → t.isForeign = false

end Table

namespace Used

/-- The recorded C declarations are those that `roots` reach. -/
structure IsClosure (used : Used) (table : Table) (roots : List TypeExpr) : Prop where
  typedefs : ∀ usr, usr ∈ used.typedefs ↔
    (∃ name, table.Reaches roots (.typedef name usr)) ∧
      ∃ d type, table.find usr = .ok d ∧ d.kind = .typedef type
  structs : ∀ usr, usr ∈ used.structs ↔ table.Reaches roots (.record usr) ∧
    ∃ d fields tag, table.find usr = .ok d ∧ d.kind = .record fields tag ∧ tag ≠ .union
  enums : ∀ usr, usr ∈ used.enums ↔ table.Reaches roots (.enum usr) ∧
    ∃ d integerType isClosed enumerators,
      table.find usr = .ok d ∧ d.kind = .enum integerType isClosed enumerators
  unions : ∀ usr, usr ∈ used.unions ↔ table.Reaches roots (.record usr) ∧
    ∃ d fields, table.find usr = .ok d ∧ d.kind = .record fields .union

/-- Two searches recorded the same C declarations. -/
def SameDeclarations (used used' : Used) : Prop :=
  used.typedefs = used'.typedefs ∧ used.structs = used'.structs
    ∧ used.enums = used'.enums ∧ used.unions = used'.unions

end Used

/-! ## §2. All that is reached is recorded. -/

/-- What is inside a type is among its parts, if the type has a place in signatures. -/
theorem TypeExpr.mem_parts_of_inner {t t' : TypeExpr} (hf : t.isForeign = false)
    (h : t' ∈ t.inner) : Pending.type t' ∈ t.parts := by
  cases t <;> simp_all [TypeExpr.inner, TypeExpr.parts, TypeExpr.isForeign]
  case object base interface protocols args => tauto

/-- The types among the parts are inside. -/
theorem TypeExpr.mem_inner_of_parts {t t' : TypeExpr} (h : Pending.type t' ∈ t.parts) :
    t' ∈ t.inner := by
  cases t <;> simp_all [TypeExpr.inner, TypeExpr.parts]
  case object base interface protocols args => tauto

namespace Table

variable {table : Table} {roots : List TypeExpr} {rows : List (List TypeExpr)}
  {todo : List Pending} {used used' : Used} {t : TypeExpr}

/-- What is accepted has a place in signatures. -/
theorem isForeign_of_accepts (h : used.Accepts table (.type t)) : t.isForeign = false := by
  cases hf : t.isForeign with
  | false => rfl
  | true => exact absurd (.foreign hf) h.proper

/-- Behind a recorded reference everything is accepted. -/
theorem Surveys.accepts_of_opens (h : table.Surveys rows {} used) {r : Ref} (hr : used.Has r)
    (hi : ∀ usr, r ≠ .interface usr) {ps : List Pending} (hps : r.Opens table ps) :
    ∀ p ∈ ps, used.Accepts table p := by
  obtain ⟨qs, hqs, ha⟩ := h.opened hr hi
  rw [hps.unique hqs]
  exact ha

/-- **A search accepts every type that its signatures reach.** -/
theorem Surveys.accepts_of_reaches (h : table.Surveys rows {} used)
    (hroots : ∀ t ∈ roots, ∃ types ∈ rows, t ∈ types) (ht : table.Reaches roots t) :
    used.Accepts table (.type t) := by
  induction ht with
  | root mem =>
      obtain ⟨types, htypes, ht⟩ := hroots _ mem
      exact h.accepts types htypes _ ht
  | inside _ mem ih =>
      exact ih.of_part (TypeExpr.mem_parts_of_inner (isForeign_of_accepts ih) mem)
  | @typedef name usr d type _ found kind ih =>
      have hhas : used.Has (.typedef usr) := ih.covers _ (.self (.typedef name usr))
      exact h.accepts_of_opens hhas (by simp) (.typedef found kind) _ List.mem_cons_self
  | @record usr d fields tag t _ found kind mem ih =>
      have hmem : Pending.type t ∈ (fieldTypes fields).map Pending.type := List.mem_map_of_mem mem
      -- Unions and structs are recorded apart, and opened alike.
      by_cases hu : tag = .union
      · subst hu
        have hhas : used.Has (.union usr) := ih.covers _ (.self (.union found kind))
        exact h.accepts_of_opens hhas (by simp) (.union found kind) _ hmem
      · have hhas : used.Has (.struct usr) := ih.covers _ (.self (.struct found kind hu))
        exact h.accepts_of_opens hhas (by simp) (.struct found kind hu) _ hmem
  | @enum usr d t isClosed enumerators _ found kind ih =>
      have hhas : used.Has (.enum usr) := ih.covers _ (.self (.enum usr))
      exact h.accepts_of_opens hhas (by simp) (.enum found kind) _ List.mem_cons_self

end Table

/-! ## §3. All that is recorded is reached. -/

/-- The pending reference is reached. -/
def Pending.Reached (table : Table) (roots : List TypeExpr) : Pending → Prop
  | .type t => table.Reaches roots t
  | .interface usr => table.ReachesInterface roots usr

namespace Table

variable {table : Table} {roots : List TypeExpr} {rows : List (List TypeExpr)}
  {todo : List Pending} {used used' : Used} {t : TypeExpr}

/-- The parts of a reached type are reached. -/
theorem Reaches.parts (h : table.Reaches roots t) : ∀ q ∈ t.parts, q.Reached table roots := by
  intro q hq
  cases q with
  | type t' => exact .inside h (TypeExpr.mem_inner_of_parts hq)
  | interface usr =>
      -- Only an object type refers to an interface.
      cases t <;> simp [TypeExpr.parts] at hq
      case object base interface protocols args =>
        subst hq
        exact .named h

/-- What the declaration of a reached reference leads to is reached. -/
theorem reached_of_opens {p : Pending} {r : Ref} {ps : List Pending}
    (hp : p.Reached table roots) (is : p.Is table r) (opens : r.Opens table ps) :
    ∀ q ∈ ps, q.Reached table roots := by
  intro q hq
  cases opens with
  | typedef found kind =>
      cases is
      rw [List.mem_singleton.1 hq]
      exact .typedef hp found kind
  | struct found kind _ =>
      cases is
      obtain ⟨t, ht, rfl⟩ := List.mem_map.1 hq
      exact .record hp found kind ht
  | union found kind =>
      cases is
      obtain ⟨t, ht, rfl⟩ := List.mem_map.1 hq
      exact .record hp found kind ht
  | enum found kind =>
      cases is
      obtain ⟨t, ht, rfl⟩ := List.mem_map.1 hq
      rw [Option.mem_toList.1 ht] at kind
      exact .enum hp found kind
  | interface found kind =>
      cases is
      obtain ⟨usr, husr, rfl⟩ := List.mem_map.1 hq
      rw [Option.mem_toList.1 husr] at kind
      exact .above hp found kind

/-- After a reference was opened, all that is pending is still reached. -/
theorem reached_enter {p : Pending} {r : Ref} {ps rest : List Pending}
    (htodo : ∀ q ∈ p :: rest, q.Reached table roots) (is : p.Is table r)
    (opens : r.Opens table ps) : ∀ q ∈ ps ++ rest, q.Reached table roots := by
  intro q hq
  rcases List.mem_append.1 hq with hq | hq
  · exact reached_of_opens (htodo p List.mem_cons_self) is opens q hq
  · exact htodo q (List.mem_cons_of_mem _ hq)

/-- After a type was taken apart, all that is pending is still reached. -/
theorem reached_descend {rest : List Pending}
    (htodo : ∀ q ∈ Pending.type t :: rest, q.Reached table roots) :
    ∀ q ∈ t.parts ++ rest, q.Reached table roots := by
  intro q hq
  have ht : table.Reaches roots t := htodo (.type t) List.mem_cons_self
  rcases List.mem_append.1 hq with hq | hq
  · exact ht.parts q hq
  · exact htodo q (List.mem_cons_of_mem _ hq)

/-- A run from reached references records reached references only. -/
theorem Follows.reached (h : table.Follows todo used used') :
    (∀ p ∈ todo, p.Reached table roots) → ∀ r, used'.Has r →
      used.Has r ∨ ∃ p : Pending, p.Reached table roots ∧ p.Is table r := by
  induction h with
  | done => exact fun _ r hr => .inl hr
  | known _ _ _ ih =>
      intro htodo r hr
      exact ih (fun q hq => htodo q (List.mem_cons_of_mem _ hq)) r hr
  | @enter p r₀ ps rest _ _ is _ opens _ ih =>
      intro htodo r hr
      rcases ih (reached_enter htodo is opens) r hr with hr | hr
      · rcases Used.has_record.1 hr with rfl | hr
        · exact .inr ⟨p, htodo p List.mem_cons_self, is⟩
        · exact .inl hr
      · exact .inr hr
  | descend _ _ _ ih => exact fun htodo => ih (reached_descend htodo)

/-- **A search records only what its signatures reach**, containers apart. -/
theorem Surveys.reached (h : table.Surveys rows used used') :
    (∀ types ∈ rows, ∀ t ∈ types, table.Reaches roots t) → ∀ r, used'.Has r →
      used.Has r ∨ (∃ usr, r = .interface usr) ∨
        ∃ p : Pending, p.Reached table roots ∧ p.Is table r := by
  induction h with
  | done => exact fun _ r hr => .inl hr
  | seed usr _ ih =>
      intro hrows r hr
      rcases ih hrows r hr with hr | hr
      · rcases Used.has_record.1 hr with rfl | hr
        · exact .inr (.inl ⟨usr, rfl⟩)
        · exact .inl hr
      · exact .inr hr
  | @row types rows _ _ _ run _ ih =>
      intro hrows r hr
      rcases ih (fun ts hts => hrows ts (List.mem_cons_of_mem _ hts)) r hr with hr | hr
      · have htodo : ∀ p ∈ types.map Pending.type, p.Reached table roots := by
          intro p hp
          obtain ⟨t, ht, rfl⟩ := List.mem_map.1 hp
          exact hrows types List.mem_cons_self t ht
        rcases run.reached htodo r hr with hr | hr
        · exact .inl hr
        · exact .inr (.inr hr)
      · exact .inr hr

/-! ## §4. The closure. -/

/-- A recorded typedef, record or enum is reached and was opened. -/
theorem Surveys.recorded (h : table.Surveys rows {} used)
    (hrows : ∀ types ∈ rows, ∀ t ∈ types, table.Reaches roots t) {r : Ref} (hr : used.Has r)
    (hi : ∀ usr, r ≠ .interface usr) :
    (∃ p : Pending, p.Reached table roots ∧ p.Is table r) ∧ ∃ ps, r.Opens table ps := by
  obtain ⟨ps, hps, _⟩ := h.opened hr hi
  refine ⟨?_, ps, hps⟩
  rcases h.reached hrows r hr with hr | ⟨usr, rfl⟩ | hr
  · cases r <;> simp [Used.Has] at hr
  · exact absurd rfl (hi usr)
  · exact hr

/-- **What a search records is the closure of its signatures.** -/
theorem Surveys.isClosure (h : table.Surveys rows {} used)
    (hroots : ∀ t, t ∈ roots ↔ ∃ types ∈ rows, t ∈ types) : used.IsClosure table roots := by
  have hrows : ∀ types ∈ rows, ∀ t ∈ types, table.Reaches roots t :=
    fun types htypes t ht => .root ((hroots t).2 ⟨types, htypes, ht⟩)
  have haccepts : ∀ {t : TypeExpr}, table.Reaches roots t → used.Accepts table (.type t) :=
    fun ht => h.accepts_of_reaches (fun t ht => (hroots t).1 ht) ht
  -- In each part a recorded reference was reached, and what is reached is
  -- accepted, so that the reference it makes is recorded.
  constructor
  case typedefs =>
    intro usr
    constructor
    · intro hmem
      have hhas : used.Has (.typedef usr) := hmem
      obtain ⟨⟨p, hp, is⟩, _, opens⟩ := h.recorded hrows hhas (by simp)
      cases is with
      | typedef name =>
          cases opens with
          | typedef found kind => exact ⟨⟨name, hp⟩, _, _, found, kind⟩
    · rintro ⟨⟨name, ht⟩, _⟩
      exact (haccepts ht).covers _ (.self (.typedef name usr))
  case structs =>
    intro usr
    constructor
    · intro hmem
      have hhas : used.Has (.struct usr) := hmem
      obtain ⟨⟨p, hp, is⟩, _, _⟩ := h.recorded hrows hhas (by simp)
      cases is with
      | struct found kind tagged => exact ⟨hp, _, _, _, found, kind, tagged⟩
    · rintro ⟨ht, d, fields, tag, found, kind, tagged⟩
      exact (haccepts ht).covers _ (.self (.struct found kind tagged))
  case enums =>
    intro usr
    constructor
    · intro hmem
      have hhas : used.Has (.enum usr) := hmem
      obtain ⟨⟨p, hp, is⟩, _, opens⟩ := h.recorded hrows hhas (by simp)
      cases is
      cases opens with
      | enum found kind => exact ⟨hp, _, _, _, _, found, kind⟩
    · rintro ⟨ht, _⟩
      exact (haccepts ht).covers _ (.self (.enum usr))
  case unions =>
    intro usr
    constructor
    · intro hmem
      have hhas : used.Has (.union usr) := hmem
      obtain ⟨⟨p, hp, is⟩, _, _⟩ := h.recorded hrows hhas (by simp)
      cases is with
      | union found kind => exact ⟨hp, _, _, found, kind⟩
    · rintro ⟨ht, d, fields, found, kind⟩
      exact (haccepts ht).covers _ (.self (.union found kind))

end Table

/-! ## §5. The order of the search. -/

namespace Used

/-- The recorded C declarations stand in ascending order. -/
structure Sorted (used : Used) : Prop where
  typedefs : used.typedefs.Pairwise (· < ·)
  structs : used.structs.Pairwise (· < ·)
  enums : used.enums.Pairwise (· < ·)
  unions : used.unions.Pairwise (· < ·)

theorem sorted_empty : Sorted {} :=
  ⟨List.Pairwise.nil, List.Pairwise.nil, List.Pairwise.nil, List.Pairwise.nil⟩

/-- Recording keeps the order. -/
theorem Sorted.record {used : Used} (h : used.Sorted) (r : Ref) : (used.record r).Sorted := by
  cases r with
  | typedef usr => exact { h with typedefs := NameSet.pairwise_add h.typedefs }
  | struct usr => exact { h with structs := NameSet.pairwise_add h.structs }
  | union usr => exact { h with unions := NameSet.pairwise_add h.unions }
  | enum usr => exact { h with enums := NameSet.pairwise_add h.enums }
  | interface usr => exact { h with }

/-- Closures of the same signatures are the same. -/
theorem IsClosure.unique {table : Table} {roots : List TypeExpr} {used used' : Used}
    (h : used.IsClosure table roots) (hs : used.Sorted) (h' : used'.IsClosure table roots)
    (hs' : used'.Sorted) : used.SameDeclarations used' := by
  refine ⟨?_, ?_, ?_, ?_⟩
  · exact hs.typedefs.eq_of_mem_iff hs'.typedefs
      fun usr => (h.typedefs usr).trans (h'.typedefs usr).symm
  · exact hs.structs.eq_of_mem_iff hs'.structs
      fun usr => (h.structs usr).trans (h'.structs usr).symm
  · exact hs.enums.eq_of_mem_iff hs'.enums fun usr => (h.enums usr).trans (h'.enums usr).symm
  · exact hs.unions.eq_of_mem_iff hs'.unions fun usr => (h.unions usr).trans (h'.unions usr).symm

end Used

namespace Table

variable {table : Table} {roots : List TypeExpr} {rows : List (List TypeExpr)}
  {todo : List Pending} {used used' : Used} {t : TypeExpr}

/-- A row of runs keeps the order. -/
theorem Surveys.sorted (h : table.Surveys rows used used') : used.Sorted → used'.Sorted :=
  h.keeps fun _ r hs => hs.record r

/-- The signatures of some containers are the types of the rows of a search
through them. -/
theorem mem_signatureTypes_iff {ds : List Decl} :
    t ∈ signatureTypes ds ↔
      ∃ types ∈ ds.flatMap fun d => d.methods.map Method.types, t ∈ types := by
  unfold signatureTypes
  simp only [List.mem_flatMap, List.mem_map]
  constructor
  · rintro ⟨d, hd, m, hm, ht⟩
    exact ⟨m.types, ⟨d, hd, m, hm, rfl⟩, ht⟩
  · rintro ⟨types, ⟨d, hd, m, hm, rfl⟩, ht⟩
    exact ⟨d, hd, m, hm, ht⟩

/-- A search through any containers finds the closure of their signatures. -/
theorem isClosure_of_followContainers {ds : List Decl}
    (hds : ∀ t, t ∈ signatureTypes ds ↔ t ∈ roots) (h : table.followContainers ds {} = .ok used) :
    used.IsClosure table roots ∧ used.Sorted := by
  have hrun := surveys_of_followContainers h
  refine ⟨hrun.isClosure fun t => ?_, hrun.sorted Used.sorted_empty⟩
  rw [← hds t, mem_signatureTypes_iff]

/-! ## §6. When the search succeeds. -/

/-- A reached reference that resolves does not stop the search. -/
theorem not_stuck_of_reached (hres : table.Resolves roots)
    (hint : table.ResolvesInterfaces roots) {p : Pending} (hp : p.Reached table roots) :
    ¬ p.Stuck table := by
  intro hstuck
  cases hstuck with
  | typedef wrong =>
      obtain ⟨d, type, found, kind⟩ := hres.typedefs _ _ hp
      exact wrong d type found kind
  | record wrong =>
      obtain ⟨d, fields, tag, found, kind⟩ := hres.records _ hp
      exact wrong d fields tag found kind
  | enum wrong =>
      obtain ⟨d, integerType, isClosed, enumerators, found, kind⟩ := hres.enums _ hp
      exact wrong d integerType isClosed enumerators found kind
  | interface wrong =>
      obtain ⟨d, found, hi⟩ := hint _ hp
      rw [wrong d found] at hi
      cases hi
  | foreign foreign =>
      rw [hres.native _ hp] at foreign
      cases foreign

/-- **A search from reached references succeeds**, if all that is reached
resolves. -/
theorem Runs.ok {result : Except Failure Used} (hres : table.Resolves roots)
    (hint : table.ResolvesInterfaces roots) (h : table.Runs todo used result) :
    (∀ p ∈ todo, p.Reached table roots) → ∃ used', result = .ok used' := by
  induction h with
  | done => exact fun _ => ⟨_, rfl⟩
  | known _ _ _ ih => exact fun htodo => ih fun q hq => htodo q (List.mem_cons_of_mem _ hq)
  | enter is _ opens _ ih => exact fun htodo => ih (reached_enter htodo is opens)
  | descend _ _ _ ih => exact fun htodo => ih (reached_descend htodo)
  | stuck stuck =>
      intro htodo
      exact absurd stuck (not_stuck_of_reached hres hint (htodo _ List.mem_cons_self))

/-- Following methods succeeds if all that they reach resolves. -/
theorem followMethods_ok (hres : table.Resolves roots) (hint : table.ResolvesInterfaces roots)
    {owner : String} :
    ∀ {ms : List Method} {used : Used}, (∀ m ∈ ms, ∀ t ∈ m.types, table.Reaches roots t) →
      ∃ used', table.followMethods owner ms used = .ok used'
  | [], used, _ => ⟨used, rfl⟩
  | m :: ms, used, h => by
      have htodo : ∀ p ∈ m.types.map Pending.type, p.Reached table roots := by
        intro p hp
        obtain ⟨t, ht, rfl⟩ := List.mem_map.1 hp
        exact h m List.mem_cons_self t ht
      obtain ⟨used₁, hm⟩ :=
        (table.runs_follow (owner ++ " " ++ m.selector) _ used).ok hres hint htodo
      rw [followMethods, hm]
      exact followMethods_ok hres hint fun m' hm' => h m' (List.mem_cons_of_mem m hm')

/-- Following containers succeeds if all that they reach resolves. -/
theorem followContainers_ok (hres : table.Resolves roots)
    (hint : table.ResolvesInterfaces roots) :
    ∀ {ds : List Decl} {used : Used}, (∀ t ∈ signatureTypes ds, table.Reaches roots t) →
      ∃ used', table.followContainers ds used = .ok used'
  | [], used, _ => ⟨used, rfl⟩
  | d :: ds, used, h => by
      have hd : ∀ m ∈ d.methods, ∀ t ∈ m.types, table.Reaches roots t := by
        intro m hm t ht
        refine h t (List.mem_append_left _ ?_)
        exact List.mem_flatMap.2 ⟨m, hm, ht⟩
      obtain ⟨used₁, hmethods⟩ := followMethods_ok hres hint hd
      rw [followContainers, hmethods]
      exact followContainers_ok hres hint fun t ht => h t (List.mem_append_right _ ht)

/-- All that an accepted search reaches resolves. -/
theorem Surveys.resolves (h : table.Surveys rows {} used)
    (hroots : ∀ t ∈ roots, ∃ types ∈ rows, t ∈ types) : table.Resolves roots := by
  constructor
  case typedefs =>
    intro name usr ht
    have hhas : used.Has (.typedef usr) :=
      (h.accepts_of_reaches hroots ht).covers _ (.self (.typedef name usr))
    obtain ⟨_, opens, _⟩ := h.opened hhas (by simp)
    cases opens with
    | typedef found kind => exact ⟨_, _, found, kind⟩
  case records =>
    intro usr ht
    by_contra hnone
    refine (h.accepts_of_reaches hroots ht).proper (.record fun d fields tag found kind => ?_)
    exact hnone ⟨d, fields, tag, found, kind⟩
  case enums =>
    intro usr ht
    have hhas : used.Has (.enum usr) :=
      (h.accepts_of_reaches hroots ht).covers _ (.self (.enum usr))
    obtain ⟨_, opens, _⟩ := h.opened hhas (by simp)
    cases opens with
    | enum found kind => exact ⟨_, _, _, _, found, kind⟩
  case native => exact fun t ht => isForeign_of_accepts (h.accepts_of_reaches hroots ht)

/-! ## §7. The theorem. -/

/-- **What is in use is exactly what the signatures reach**, whatever order
containers, methods and types are followed in; and where the reached
interfaces are declared as such, the search succeeds exactly if all other
references that are reached lead to declarations of their kind, and no reached
type is out of place. -/
theorem used_exact (table : Table) :
    (∀ used, table.used = .ok used →
      used.IsClosure table table.signatures ∧
      ∀ ds used', (∀ t, t ∈ signatureTypes ds ↔ t ∈ table.signatures) →
        table.followContainers ds {} = .ok used' → used'.SameDeclarations used) ∧
    (table.ResolvesInterfaces table.signatures →
      ((∃ used, table.used = .ok used) ↔ table.Resolves table.signatures)) := by
  constructor
  · intro used h
    obtain ⟨hclosure, hsorted⟩ := isClosure_of_followContainers (fun _ => Iff.rfl) h
    refine ⟨hclosure, fun ds used' hds h' => ?_⟩
    obtain ⟨hclosure', hsorted'⟩ := isClosure_of_followContainers hds h'
    exact hclosure'.unique hsorted' hclosure hsorted
  · intro hint
    constructor
    · rintro ⟨used, h⟩
      exact (surveys_of_followContainers h).resolves fun t ht => mem_signatureTypes_iff.1 ht
    · intro hres
      exact followContainers_ok hres hint fun t ht => .root ht

end Table

/-- A class below itself, with a method that takes a struct: the struct points
to itself, holds a typedef of a pointer to a union that holds the struct, and
an enum whose integer type leads back to the enum. -/
def ringTable : Table where
  definitions :=
    [.implicit "s:Node" "Node" (.record
       [.implicit "next" "next" (.field (.pointer (.record "s:Node")) none),
        .implicit "owner" "owner" (.field (.ofName "Owner") none),
        .implicit "tag" "tag" (.field (.enum "e:Tag") none)] .struct),
     .implicit "t:Owner" "Owner" (.typedef (.pointer (.record "u:Any"))),
     .implicit "u:Any" "Any" (.record
       [.implicit "node" "node" (.field (.record "s:Node") none)] .union),
     .implicit "e:Tag" "Tag" (.enum (some (.ofName "Word")) false
       [.implicit "First" "First" (.enumConstant (some "0"))]),
     .implicit "t:Word" "Word" (.typedef (.enum "e:Tag")),
     .implicit "c:Ring" "Ring" (.interface
       [.ofMethod "push:" [.record "s:Node"]
         (.objectPointer (.object none (some "c:Ring") [] []))] [] (some "c:Ring") [])]

/-- All that the signatures of the class reach. -/
def ringTypes : List TypeExpr :=
  [.objectPointer (.object none (some "c:Ring") [] []), .object none (some "c:Ring") [] [],
   .record "s:Node", .pointer (.record "s:Node"), .ofName "Owner", .enum "e:Tag",
   .pointer (.record "u:Any"), .record "u:Any", .ofName "Word"]

/-- Only the types of the ring are reached in it. -/
theorem mem_ringTypes_of_reaches {t : TypeExpr}
    (h : ringTable.Reaches ringTable.signatures t) : t ∈ ringTypes := by
  induction h with
  | root mem =>
      have hroots : ∀ t ∈ ringTable.signatures, t ∈ ringTypes := by decide +kernel
      exact hroots _ mem
  | inside _ mem ih =>
      have hinner : ∀ t ∈ ringTypes, ∀ t' ∈ t.inner, t' ∈ ringTypes := by decide +kernel
      exact hinner _ ih _ mem
  | @typedef name usr d type reached found kind ih =>
      have husr : usr = "t:Owner" ∨ usr = "t:Word" := by
        simp [ringTypes, TypeExpr.ofName] at ih
        tauto
      rcases husr with rfl | rfl <;>
        · cases found
          cases kind
          decide +kernel
  | @record usr d fields tag t reached found kind mem ih =>
      have husr : usr = "s:Node" ∨ usr = "u:Any" := by
        simpa [ringTypes, TypeExpr.ofName] using ih
      rcases husr with rfl | rfl <;>
        · cases found
          cases kind
          revert t
          decide +kernel
  | @enum usr d t isClosed enumerators reached found kind ih =>
      have husr : usr = "e:Tag" := by
        simpa [ringTypes, TypeExpr.ofName] using ih
      subst husr
      cases found
      cases kind
      decide +kernel

/-- The search through the ring ends with its closure. -/
theorem ring_used_exact :
    ringTable.ResolvesInterfaces ringTable.signatures ∧
      ringTable.Resolves ringTable.signatures ∧
      ∃ used, ringTable.used = .ok used ∧ used.IsClosure ringTable ringTable.signatures := by
  have hint : ringTable.ResolvesInterfaces ringTable.signatures := by
    intro usr h
    have husr : usr = "c:Ring" := by
      induction h with
      | named reached =>
          have hmem := mem_ringTypes_of_reaches reached
          simp [ringTypes, TypeExpr.ofName] at hmem
          exact hmem.2.1
      | above _ found kind ih =>
          subst ih
          cases found
          cases kind
          rfl
    subst husr
    exact ⟨_, rfl, rfl⟩
  obtain ⟨hclosure, hok⟩ := Table.used_exact ringTable
  have hused : ringTable.used = .ok
      { typedefs := ["t:Owner", "t:Word"], structs := ["s:Node"], enums := ["e:Tag"],
        unions := ["u:Any"], objc := ["c:Ring"] } := by
    cbv
  exact ⟨hint, (hok hint).1 ⟨_, hused⟩, _, hused, (hclosure _ hused).1⟩

end ObjcBindings
