/-
  ObjcBindings.Proofs.TableAgreement
  ────────────────────────────────
  **TWO TABLES THAT A RUN CANNOT TELL APART.**

  A region of USRs is closed under references if no declaration of the region
  mentions a USR outside it.  Two tables agree on such a region if look-ups in
  it give the same, and what the second table defines beside it is inert: no
  container, and no typedef that names a tag.  Every search starts with the
  containers, so it stays in the region, and goes alike in both tables.

      Alike        — the same result, or two failures
      mentioned    — the USRs that a type or declaration refers to
      Agrees       — two tables agree on a region
      visit        — what following one reference does
      Agrees.used  — the same declarations are in use
-/
import ObjcBindings.Interop.Scope
import ObjcBindings.Proofs.ReachedDeclarations
import Mathlib

namespace ObjcBindings

/-! ## §1. Results of two runs. -/

/-- Both runs succeed with the same result, or both fail; where `strict` holds,
they fail alike. -/
inductive Alike {α : Type} (strict : Prop) : Except Failure α → Except Failure α → Prop where
  | ok (a : α) : Alike strict (.ok a) (.ok a)
  | error {e e' : Failure} (same : strict → e = e') : Alike strict (.error e) (.error e')

namespace Alike

variable {α β : Type} {strict : Prop} {x y : Except Failure α}

/-- An outcome is like itself. -/
theorem refl (x : Except Failure α) : Alike strict x x := by
  cases x with
  | ok a => exact .ok a
  | error e => exact .error fun _ => rfl

/-- Equal outcomes are alike. -/
theorem of_eq (h : x = y) : Alike strict x y := h ▸ refl x

/-- Two runs that go alike, case by case. -/
theorem elim (h : Alike strict x y) :
    (∃ a, x = .ok a ∧ y = .ok a) ∨
      ∃ e e', x = .error e ∧ y = .error e' ∧ (strict → e = e') := by
  cases h with
  | ok a => exact .inl ⟨a, rfl, rfl⟩
  | error same => exact .inr ⟨_, _, rfl, rfl, same⟩

/-- Of two outcomes that are alike both are the same success, or neither is. -/
theorem ok_iff (h : Alike strict x y) (a : α) : x = .ok a ↔ y = .ok a := by
  cases h with
  | ok b => exact Iff.rfl
  | error _ => simp

/-- Strictly, outcomes that are alike are equal. -/
theorem eq_of_strict (h : Alike strict x y) (hstrict : strict) : x = y := by
  cases h with
  | ok _ => rfl
  | error same => rw [same hstrict]

/-- Steps that go alike after steps that went alike. -/
theorem bind {f g : α → Except Failure β} (h : Alike strict x y)
    (hf : ∀ a, x = .ok a → Alike strict (f a) (g a)) : Alike strict (x >>= f) (y >>= g) := by
  cases h with
  | ok a => exact hf a rfl
  | error same => exact .error same

/-- What is made of two outcomes that are alike is alike. -/
theorem map (f : α → β) (h : Alike strict x y) : Alike strict (x.map f) (y.map f) := by
  cases h with
  | ok a => exact .ok (f a)
  | error same => exact .error same

end Alike

/-! ## §2. What is mentioned. -/

namespace TypeExpr

mutual

/-- The USRs that a type refers to. -/
def mentioned : TypeExpr → List Usr
  | .typedef _ usr | .record usr | .enum usr => [usr]
  | .pointer t | .blockPointer t | .decayed t | .objectPointer t | .wrapped _ t
  | .functionNoProto t | .constantArray t _ | .incompleteArray t | .vector t _
  | .extVector t _ => t.mentioned
  | .object base interface _ args =>
      mentionedBase base ++ interface.toList ++ mentionedList args
  | .function params result _ => result.mentioned ++ mentionedSlots params
  | .builtin _ | .typeParam _ _ | .unknown => []

/-- The USRs that an optional type refers to. -/
def mentionedBase : Option TypeExpr → List Usr
  | none => []
  | some t => t.mentioned

/-- The USRs that a list of types refers to. -/
def mentionedList : List TypeExpr → List Usr
  | [] => []
  | t :: ts => t.mentioned ++ mentionedList ts

/-- The USRs that a list of parameters refers to. -/
def mentionedSlots : List (Slot TypeExpr) → List Usr
  | [] => []
  | ⟨t, _⟩ :: ps => t.mentioned ++ mentionedSlots ps

end

/-- A list of types mentions what its members mention. -/
theorem mem_mentionedList {usr : Usr} {t : TypeExpr} :
    ∀ {ts : List TypeExpr}, t ∈ ts → usr ∈ t.mentioned → usr ∈ mentionedList ts
  | t' :: ts, ht, h => by
      rw [mentionedList]
      rcases List.mem_cons.1 ht with rfl | ht
      · exact List.mem_append_left _ h
      · exact List.mem_append_right _ (mem_mentionedList ht h)

/-- The parameters of a function type mention what their types mention. -/
theorem mem_mentionedSlots {usr : Usr} {t : TypeExpr} :
    ∀ {ps : List (Slot TypeExpr)}, t ∈ ps.map Slot.type → usr ∈ t.mentioned →
      usr ∈ mentionedSlots ps
  | p :: ps, ht, h => by
      rw [mentionedSlots]
      rcases List.mem_cons.1 ht with rfl | ht
      · exact List.mem_append_left _ h
      · exact List.mem_append_right _ (mem_mentionedSlots ht h)

/-- A type refers to what the types inside it refer to. -/
theorem mem_mentioned_of_inner {usr : Usr} {t t' : TypeExpr} (ht : t' ∈ t.inner)
    (h : usr ∈ t'.mentioned) : usr ∈ t.mentioned := by
  cases t with
  | object base interface protocols args =>
      rw [mentioned]
      rcases List.mem_append.1 ht with ht | ht
      · rw [Option.mem_toList.1 ht, mentionedBase]
        exact List.mem_append_left _ (List.mem_append_left _ h)
      · exact List.mem_append_right _ (mem_mentionedList ht h)
  | function params result isVariadic =>
      rw [mentioned]
      rcases List.mem_cons.1 ht with rfl | ht
      · exact List.mem_append_left _ h
      · exact List.mem_append_right _ (mem_mentionedSlots ht h)
  | _ => simp_all [inner, mentioned]

/-- All that the type refers to is known. -/
def Within (known : Usr → Bool) (t : TypeExpr) : Prop :=
  ∀ usr ∈ t.mentioned, known usr = true

variable {known : Usr → Bool} {t t' : TypeExpr}

/-- A type inside one of the region is of the region. -/
theorem Within.inner (h : t.Within known) (ht : t' ∈ t.inner) : t'.Within known :=
  fun usr husr => h usr (mem_mentioned_of_inner ht husr)

theorem Within.stripWrappers (h : t.Within known) : t.stripWrappers.Within known := by
  induction t using wrapper_induction with
  | wrapped w inner ih => exact ih (h.inner List.mem_cons_self)
  | plain t plain => rwa [stripWrappers_of_plain plain]

theorem Within.tag (h : t.Within known) {usr : Usr} (ht : t.tag? = some usr) :
    known usr = true := by
  have hstrip := h.stripWrappers
  unfold tag? at ht
  split at ht
  · next hrecord =>
    cases ht
    exact hstrip usr (by rw [hrecord, mentioned]; exact List.mem_cons_self)
  · next henum =>
    cases ht
    exact hstrip usr (by rw [henum, mentioned]; exact List.mem_cons_self)
  · cases ht

end TypeExpr

mutual

/-- The USRs that a declaration refers to, also through its members. -/
def Decl.mentioned : Decl → List Usr
  | ⟨_, _, _, _, _, _, kind⟩ => kind.mentioned

@[inherit_doc Decl.mentioned]
def DeclKind.mentioned : DeclKind → List Usr
  | .interface children _ superclass _ => superclass.toList ++ Decl.mentionedList children
  | .protocol children _ | .category _ children _ => Decl.mentionedList children
  | .method m => m.types.flatMap TypeExpr.mentioned
  | .property t | .ivar t | .typedef t | .field t _ | .var t => t.mentioned
  | .record fields _ => Decl.mentionedList fields
  | .enum integerType _ enumerators =>
      integerType.toList.flatMap TypeExpr.mentioned ++ Decl.mentionedList enumerators
  | .enumConstant _ => []
  | .function type params _ _ =>
      type.mentioned ++ params.flatMap fun p => p.type.mentioned

/-- The USRs that some declarations refer to. -/
def Decl.mentionedList : List Decl → List Usr
  | [] => []
  | d :: ds => d.mentioned ++ Decl.mentionedList ds

end

namespace Decl

/-- A declaration mentions what its kind mentions. -/
theorem mentioned_eq (d : Decl) : d.mentioned = d.kind.mentioned := by
  cases d
  rw [mentioned]

theorem mem_mentionedList {usr : Usr} {d : Decl} :
    ∀ {ds : List Decl}, d ∈ ds → usr ∈ d.kind.mentioned → usr ∈ mentionedList ds
  | d' :: ds, hd, h => by
      rw [mentionedList]
      rcases List.mem_cons.1 hd with rfl | hd
      · exact List.mem_append_left _ (d.mentioned_eq ▸ h)
      · exact List.mem_append_right _ (mem_mentionedList hd h)

/-- All that the declaration refers to is known. -/
def Within (known : Usr → Bool) (d : Decl) : Prop :=
  ∀ usr ∈ d.mentioned, known usr = true

variable {known : Usr → Bool} {d : Decl}

/-- A typedef of the region stands for a type of the region. -/
theorem Within.typedef (h : d.Within known) {type : TypeExpr} (hk : d.kind = .typedef type) :
    type.Within known := by
  intro usr husr
  refine h usr ?_
  rw [mentioned_eq, hk, DeclKind.mentioned]
  exact husr

/-- The fields of a record of the region have types of the region. -/
theorem Within.field (h : d.Within known) {fields : List Decl} {tag : TagKind}
    (hk : d.kind = .record fields tag) {t : TypeExpr} (ht : t ∈ fieldTypes fields) :
    t.Within known := by
  intro usr husr
  refine h usr ?_
  rw [mentioned_eq, hk, DeclKind.mentioned]
  obtain ⟨f, hf, ht⟩ := List.mem_filterMap.1 ht
  refine mem_mentionedList hf ?_
  split at ht
  · next hkind =>
    cases ht
    rw [hkind, DeclKind.mentioned]
    exact husr
  · cases ht

/-- The integer type of an enum of the region is of the region. -/
theorem Within.integer (h : d.Within known) {t : TypeExpr} {isClosed : Bool}
    {enumerators : List Decl} (hk : d.kind = .enum (some t) isClosed enumerators) :
    t.Within known := by
  intro usr husr
  refine h usr ?_
  rw [mentioned_eq, hk, DeclKind.mentioned]
  exact List.mem_append_left _ (by simpa using husr)

theorem Within.superclass (h : d.Within known) {children : List Decl}
    {protocols typeParams : List String} {usr : Usr}
    (hk : d.kind = .interface children protocols (some usr) typeParams) : known usr = true := by
  refine h usr ?_
  rw [mentioned_eq, hk, DeclKind.mentioned]
  exact List.mem_append_left _ List.mem_cons_self

/-- The types of the signatures of a container of the region are of the region. -/
theorem Within.signature (h : d.Within known) {m : Method} (hm : m ∈ d.methods) {t : TypeExpr}
    (ht : t ∈ m.types) : t.Within known := by
  intro usr husr
  refine h usr ?_
  obtain ⟨child, hchild, hsig⟩ := List.mem_filterMap.1 hm
  have hmember : usr ∈ mentionedList d.children := by
    refine mem_mentionedList hchild ?_
    unfold signature? at hsig
    split at hsig
    · next hkind =>
      cases hsig
      rw [hkind, DeclKind.mentioned]
      exact List.mem_flatMap.2 ⟨t, ht, husr⟩
    · cases hsig
  -- Only containers have members.
  rw [mentioned_eq]
  unfold children at hmember
  split at hmember
  · next hkind =>
    rw [hkind, DeclKind.mentioned]
    exact List.mem_append_right _ hmember
  · next hkind =>
    rw [hkind, DeclKind.mentioned]
    exact hmember
  · next hkind =>
    rw [hkind, DeclKind.mentioned]
    exact hmember
  · rw [mentionedList] at hmember
    cases hmember

/-- A declaration of C that gives no other declaration its name: a function, a
variable, a record, an enum, or a typedef of something else than a tag. -/
def isInert (d : Decl) : Bool :=
  match d.kind with
  | .function _ _ _ _ | .var _ | .record _ _ | .enum _ _ _ => true
  | .typedef type => type.tag?.isNone
  | _ => false

end Decl

/-! ## §3. Tables. -/

namespace Table

/-- The tables agree on what is known, and what the second defines beside it is
inert. -/
structure Agrees (strict : Prop) (known : Usr → Bool) (t t' : Table) : Prop where
  find : ∀ usr, known usr = true → Alike strict (t.find usr) (t'.find usr)
  definition? : ∀ usr, known usr = true → t'.definition? usr = t.definition? usr
  interfaceNamed : ∀ name, Alike strict (t.interfaceNamed name) (t'.interfaceNamed name)
  protocolNamed : ∀ name, Alike strict (t.protocolNamed name) (t'.protocolNamed name)
  definitions : t.definitions = t'.definitions.filter fun d => known d.usr
  inert : ∀ d ∈ t'.definitions, known d.usr = false → d.isInert = true
  /-- The first table declares nothing else, and refers to nothing else. -/
  declared : ∀ d ∈ t.definitions ++ t.stubs, known d.usr = true
  within : ∀ d ∈ t.definitions ++ t.stubs, d.Within known

variable {strict : Prop} {known : Usr → Bool} {t t' : Table} {usr : Usr} {d : Decl}

/-- What is found is a definition or a stub. -/
theorem mem_of_find (h : t.find usr = .ok d) : d ∈ t.definitions ++ t.stubs := by
  rcases mem_of_find? (find_eq_ok_iff.1 h) with hd | ⟨hd, _⟩
  · exact List.mem_append_left _ hd
  · exact List.mem_append_right _ hd

/-- Both tables find the same under a USR of the region. -/
theorem Agrees.find? (h : t.Agrees strict known t') (husr : known usr = true) :
    t'.find? usr = t.find? usr := by
  ext d
  rw [← find_eq_ok_iff, ← find_eq_ok_iff]
  exact ((h.find usr husr).ok_iff d).symm

/-- A typedef of the region names the same tag in both tables. -/
theorem Agrees.namedTag? (h : t.Agrees strict known t') (hd : d.Within known) :
    t'.namedTag? d = t.namedTag? d := by
  unfold Table.namedTag?
  split
  · next type hk =>
    split
    · rfl
    · next usr htag => rw [h.find? ((hd.typedef hk).tag htag)]
  · rfl

/-- An inert declaration names no tag. -/
theorem namedTag?_of_isInert (h : d.isInert = true) : t.namedTag? d = none := by
  unfold Decl.isInert at h
  unfold namedTag?
  split
  · next hk =>
    rw [hk] at h
    rw [Option.isNone_iff_eq_none.1 h]
  · rfl

/-- An inert declaration is no container. -/
theorem not_isContainer_of_isInert (h : d.isInert = true) : d.isContainer = false := by
  cases hk : d.kind <;> simp_all [Decl.isInert, Decl.isContainer]

/-- The definitions of one table are those of the other that are of the region. -/
theorem Agrees.mem_definitions (h : t.Agrees strict known t') :
    d ∈ t.definitions ↔ d ∈ t'.definitions ∧ known d.usr = true := by
  rw [h.definitions, List.mem_filter]

/-- **The same typedefs name the same tags.** -/
theorem Agrees.tagNames (h : t.Agrees strict known t') : t'.tagNames = t.tagNames := by
  unfold Table.tagNames
  rw [h.definitions, List.filterMap_filter]
  refine List.filterMap_congr fun d hd => ?_
  split
  · next husr =>
    have hmem := h.mem_definitions.2 ⟨hd, husr⟩
    rw [h.namedTag? (h.within d (List.mem_append_left _ hmem))]
  · next husr => rw [namedTag?_of_isInert (h.inert d hd (by simpa using husr)), Option.map_none]

/-- Both tables have the same containers. -/
theorem Agrees.containers (h : t.Agrees strict known t') :
    t'.definitions.filter Decl.isContainer = t.definitions.filter Decl.isContainer := by
  rw [h.definitions, List.filter_filter]
  refine List.filter_congr fun d hd => ?_
  cases husr : known d.usr with
  | true => rw [Bool.and_true]
  | false => rw [not_isContainer_of_isInert (h.inert d hd husr), Bool.false_and]

/-! ## §4. One step of the search. -/

/-- What following a reference does: the references to follow next, and what is
recorded then. -/
def visit (table : Table) (context : String) (p : Pending) (used : Used) :
    Except Failure (List Pending × Used) :=
  match p with
  | .interface usr =>
      if usr ∈ used.objc then .ok ([], used)
      else table.find usr >>= fun d =>
        match d.kind with
        | .interface _ _ superclass _ =>
            .ok (superclass.toList.map .interface, used.record (.interface usr))
        | _ => .error (d.unexpected "ObjCInterface")
  | .type (.typedef _ usr) =>
      if usr ∈ used.typedefs then .ok ([], used)
      else table.find usr >>= fun d =>
        match d.kind with
        | .typedef type => .ok ([.type type], used.record (.typedef usr))
        | _ => .error (d.unexpected "Typedef")
  | .type (.record usr) =>
      table.find usr >>= fun d =>
        match d.kind with
        | .record fields .union =>
            if usr ∈ used.unions then .ok ([], used)
            else .ok ((fieldTypes fields).map .type, used.record (.union usr))
        | .record fields _ =>
            if usr ∈ used.structs then .ok ([], used)
            else .ok ((fieldTypes fields).map .type, used.record (.struct usr))
        | _ => .error (d.unexpected "Record")
  | .type (.enum usr) =>
      if usr ∈ used.enums then .ok ([], used)
      else table.find usr >>= fun d =>
        match d.kind with
        | .enum integerType _ _ =>
            .ok (integerType.toList.map .type, used.record (.enum usr))
        | _ => .error (d.unexpected "Enum")
  | .type (.vector _ _) => .error (.unsupportedType "Vector" context)
  | .type (.extVector _ _) => .error (.unsupportedType "ExtVector" context)
  | .type .unknown => .error (.unsupportedType "Unknown" context)
  | .type t => .ok (t.parts, used)

/-- **The search follows the first reference, then what it led to and the
rest.** -/
theorem follow_cons (table : Table) (context : String) (p : Pending) (rest : List Pending)
    (used : Used) :
    table.follow context (p :: rest) used = table.visit context p used >>=
      fun (ps, used') => table.follow context (ps ++ rest) used' := by
  -- Each arm of the search returns to itself, where `visit` returns its list.
  cases p with
  | interface usr =>
      rw [follow, visit]
      split
      · rfl
      · cases table.find usr with
        | error e => rfl
        | ok d =>
            cases hk : d.kind <;> simp only [hk, bind, Except.bind]
            rfl
  | type t =>
      cases t with
      | typedef name usr =>
          rw [follow, visit]
          split
          · rfl
          · cases table.find usr with
            | error e => rfl
            | ok d =>
                cases hk : d.kind <;> simp only [hk, bind, Except.bind]
                rfl
      | record usr =>
          rw [follow, visit]
          cases table.find usr with
          | error e => rfl
          | ok d =>
              cases hk : d.kind with
              | record fields tag =>
                  by_cases hu : usr ∈ used.unions <;> by_cases hs : usr ∈ used.structs <;>
                    cases tag <;> simp only [hk, hu, hs, bind, Except.bind] <;> rfl
              | _ => simp only [hk, bind, Except.bind]
      | enum usr =>
          rw [follow, visit]
          split
          · rfl
          · cases table.find usr with
            | error e => rfl
            | ok d =>
                cases hk : d.kind <;> simp only [hk, bind, Except.bind]
                rfl
      | _ => rw [follow, visit] <;> first | rfl | simp

section Step

variable {table : Table} {context : String} {p : Pending} {used used' : Used}
  {ps rest : List Pending}

/-- **What one step does**: it passes a reference that is recorded, records one
and turns to what its declaration leads to, or takes a type apart. -/
theorem visit_cases (h : table.visit context p used = .ok (ps, used')) :
    (ps = [] ∧ used' = used) ∨
    (∃ r, p.Is table r ∧ ¬ used.Has r ∧ r.Opens table ps ∧ used' = used.record r) ∨
    (∃ t, p = .type t ∧ ps = t.parts ∧ used' = used) := by
  -- A run that is `ok` rules out a missing declaration and one of another kind.
  unfold visit at h
  split at h
  · next usr =>
    split at h
    · cases h
      exact .inl ⟨rfl, rfl⟩
    · next new =>
      obtain ⟨d, found, h⟩ := bind_eq_ok_iff.1 h
      split at h
      · next kind =>
        cases h
        exact .inr (.inl ⟨_, .interface usr, new, .interface found kind, rfl⟩)
      · cases h
  · next name usr =>
    split at h
    · cases h
      exact .inl ⟨rfl, rfl⟩
    · next new =>
      obtain ⟨d, found, h⟩ := bind_eq_ok_iff.1 h
      split at h
      · next kind =>
        cases h
        exact .inr (.inl ⟨_, .typedef name usr, new, .typedef found kind, rfl⟩)
      · cases h
  · next usr =>
    -- A record is looked up first, since its kind says where it is recorded.
    obtain ⟨d, found, h⟩ := bind_eq_ok_iff.1 h
    split at h
    · next kind =>
      split at h
      · cases h
        exact .inl ⟨rfl, rfl⟩
      · next new =>
        cases h
        exact .inr (.inl ⟨_, .union found kind, new, .union found kind, rfl⟩)
    · next tagged kind =>
      split at h
      · cases h
        exact .inl ⟨rfl, rfl⟩
      · next new =>
        cases h
        exact .inr (.inl ⟨_, .struct found kind tagged, new, .struct found kind tagged, rfl⟩)
    · cases h
  · next usr =>
    split at h
    · cases h
      exact .inl ⟨rfl, rfl⟩
    · next new =>
      obtain ⟨d, found, h⟩ := bind_eq_ok_iff.1 h
      split at h
      · next kind =>
        cases h
        exact .inr (.inl ⟨_, .enum usr, new, .enum found kind, rfl⟩)
      · cases h
  · cases h
  · cases h
  · cases h
  · cases h
    exact .inr (.inr ⟨_, rfl, rfl, rfl⟩)

/-- What a reference leads to is recorded under a USR of the table. -/
theorem room_record_lt {r : Ref} (opens : r.Opens table ps) (new : ¬ used.Has r) :
    (used.record r).room table.usrs < used.room table.usrs := by
  have hlt {usr : Usr} {d : Decl} (found : table.find usr = .ok d) {names : Text.NameSet}
      (hnew : usr ∉ names) := Text.NameSet.missing_add_lt (mem_usrs_of_find found) hnew
  cases opens with
  | typedef found _ | struct found _ _ | union found _ | enum found _ | interface found _ =>
      have := hlt found new
      simp only [Used.room, Used.record]
      omega

/-- **Induction along the search**, one case for the end and one for a step. -/
theorem follow_induction (table : Table) (context : String)
    {motive : List Pending → Used → Prop} (done : ∀ used, motive [] used)
    (step : ∀ p rest used, (∀ ps used', table.visit context p used = .ok (ps, used') →
      motive (ps ++ rest) used') → motive (p :: rest) used) :
    ∀ todo used, motive todo used
  | [], used => done used
  | p :: rest, used => step p rest used fun ps used' _h =>
      follow_induction table context done step (ps ++ rest) used'
termination_by todo used => (used.room table.usrs, Pending.total todo)
decreasing_by
  rcases visit_cases _h with ⟨rfl, rfl⟩ | ⟨r, _, new, opens, rfl⟩ | ⟨t, rfl, rfl, rfl⟩
  · refine Prod.Lex.right _ ?_
    rw [List.nil_append, Pending.total_cons]
    exact Nat.lt_add_of_pos_left p.weight_pos
  · exact Prod.Lex.left _ _ (room_record_lt opens new)
  · refine Prod.Lex.right _ ?_
    rw [Pending.total_append, Pending.total_cons]
    exact Nat.add_lt_add_right t.total_parts_lt _

end Step

/-! ## §5. The search in two tables. -/

/-- What is reached from the containers of the first table is known. -/
theorem Agrees.within_of_reaches (h : t.Agrees strict known t') {type : TypeExpr}
    (hreached : t.Reaches t.signatures type) : type.Within known := by
  induction hreached with
  | root mem =>
      obtain ⟨d, hd, mem⟩ := List.mem_flatMap.1 mem
      obtain ⟨m, hm, mem⟩ := List.mem_flatMap.1 mem
      have hdef := (List.mem_filter.1 hd).1
      exact (h.within d (List.mem_append_left _ hdef)).signature hm mem
  | inside _ mem ih => exact ih.inner mem
  | typedef _ found kind _ => exact (h.within _ (mem_of_find found)).typedef kind
  | record _ found kind mem _ => exact (h.within _ (mem_of_find found)).field kind mem
  | enum _ found kind _ => exact (h.within _ (mem_of_find found)).integer kind

/-- An interface that the signatures reach is of the region. -/
theorem Agrees.known_of_reachesInterface (h : t.Agrees strict known t')
    (hreached : t.ReachesInterface t.signatures usr) : known usr = true := by
  induction hreached with
  | @named base usr protocols args reached =>
      refine h.within_of_reaches reached usr ?_
      rw [TypeExpr.mentioned]
      simp
  | above _ found kind _ => exact (h.within _ (mem_of_find found)).superclass kind

/-- A step goes alike in both tables. -/
theorem Agrees.visit (h : t.Agrees strict known t') {p : Pending}
    (hp : p.Reached t t.signatures) (context : String) (used : Used) :
    Alike strict (t.visit context p used) (t'.visit context p used) := by
  have hfind {usr : Usr} (husr : known usr = true) {β : Type} (f : Decl → Except Failure β) :
      Alike strict (t.find usr >>= f) (t'.find usr >>= f) :=
    (h.find usr husr).bind fun d _ => .refl (f d)
  unfold Table.visit
  split
  · next usr =>
    split
    · exact .refl _
    · exact hfind (h.known_of_reachesInterface hp) _
  · next name usr =>
    have husr : known usr = true := h.within_of_reaches hp usr (by simp [TypeExpr.mentioned])
    split
    · exact .refl _
    · exact hfind husr _
  · next usr =>
    have husr : known usr = true := h.within_of_reaches hp usr (by simp [TypeExpr.mentioned])
    exact hfind husr _
  · next usr =>
    have husr : known usr = true := h.within_of_reaches hp usr (by simp [TypeExpr.mentioned])
    split
    · exact .refl _
    · exact hfind husr _
  all_goals exact .refl _

/-- **A search from what is reached goes alike in both tables.** -/
theorem Agrees.follow (h : t.Agrees strict known t') (context : String) (todo : List Pending)
    (used : Used) (htodo : ∀ p ∈ todo, p.Reached t t.signatures) :
    Alike strict (t.follow context todo used) (t'.follow context todo used) := by
  refine follow_induction t context (motive := fun todo used =>
    (∀ p ∈ todo, p.Reached t t.signatures) →
      Alike strict (t.follow context todo used) (t'.follow context todo used))
    ?done ?step todo used htodo
  case done =>
    intro used _
    rw [Table.follow, Table.follow]
    exact .ok used
  case step =>
    intro p rest used ih htodo
    rw [follow_cons, follow_cons]
    refine (h.visit (htodo p List.mem_cons_self) context used).bind ?_
    rintro ⟨ps, used'⟩ hstep
    refine ih ps used' hstep ?_
    -- All that is pending after the step is still reached.
    rcases visit_cases hstep with ⟨rfl, rfl⟩ | ⟨r, is, _, opens, rfl⟩ | ⟨t, rfl, rfl, rfl⟩
    · exact fun q hq => htodo q (List.mem_cons_of_mem p hq)
    · exact reached_enter htodo is opens
    · exact reached_descend htodo

/-- Following the signatures of methods ends alike. -/
theorem Agrees.followMethods (h : t.Agrees strict known t') (owner : String) :
    ∀ (ms : List Method) (used : Used),
      (∀ m ∈ ms, ∀ type ∈ m.types, t.Reaches t.signatures type) →
      Alike strict (t.followMethods owner ms used) (t'.followMethods owner ms used)
  | [], used, _ => .ok used
  | m :: ms, used, hms => by
      have htodo : ∀ p ∈ m.types.map Pending.type, p.Reached t t.signatures := by
        intro p hp
        obtain ⟨type, htype, rfl⟩ := List.mem_map.1 hp
        exact hms m List.mem_cons_self type htype
      rw [Table.followMethods, Table.followMethods]
      rcases (h.follow (owner ++ " " ++ m.selector) _ used htodo).elim with
        ⟨used', hx, hy⟩ | ⟨e, e', hx, hy, same⟩
      · rw [hx, hy]
        exact h.followMethods owner ms used' fun x hx => hms x (List.mem_cons_of_mem m hx)
      · rw [hx, hy]
        exact .error same

/-- Following the signatures of containers ends alike. -/
theorem Agrees.followContainers (h : t.Agrees strict known t') :
    ∀ (ds : List Decl) (used : Used), (∀ d ∈ ds, d ∈ t.definitions.filter Decl.isContainer) →
      Alike strict (t.followContainers ds used) (t'.followContainers ds used)
  | [], used, _ => .ok used
  | d :: ds, used, hds => by
      have hroots : ∀ m ∈ d.methods, ∀ type ∈ m.types, t.Reaches t.signatures type := by
        intro m hm type htype
        refine .root (List.mem_flatMap.2 ⟨d, hds d List.mem_cons_self, ?_⟩)
        exact List.mem_flatMap.2 ⟨m, hm, htype⟩
      rw [Table.followContainers, Table.followContainers]
      rcases (h.followMethods d.displayName d.methods _ hroots).elim with
        ⟨used', hx, hy⟩ | ⟨e, e', hx, hy, same⟩
      · rw [hx, hy]
        exact h.followContainers ds used' fun x hx => hds x (List.mem_cons_of_mem d hx)
      · rw [hx, hy]
        exact .error same

/-- **The same declarations are in use.** -/
theorem Agrees.used (h : t.Agrees strict known t') : Alike strict t.used t'.used := by
  unfold Table.used
  rw [h.containers]
  exact h.followContainers _ {} fun d hd => hd

/-- What is in use is known. -/
theorem Agrees.known_of_used (h : t.Agrees strict known t') {used : Used}
    (hused : t.used = .ok used)
    (husr : usr ∈ used.typedefs ∨ usr ∈ used.structs ∨ usr ∈ used.enums) :
    known usr = true := by
  obtain ⟨hclosure, _⟩ := isClosure_of_followContainers (fun _ => Iff.rfl) hused
  rcases husr with husr | husr | husr
  · obtain ⟨⟨name, hreached⟩, _⟩ := (hclosure.typedefs usr).1 husr
    exact h.within_of_reaches hreached usr (by simp [TypeExpr.mentioned])
  · obtain ⟨hreached, _⟩ := (hclosure.structs usr).1 husr
    exact h.within_of_reaches hreached usr (by simp [TypeExpr.mentioned])
  · obtain ⟨hreached, _⟩ := (hclosure.enums usr).1 husr
    exact h.within_of_reaches hreached usr (by simp [TypeExpr.mentioned])

end Table

end ObjcBindings
