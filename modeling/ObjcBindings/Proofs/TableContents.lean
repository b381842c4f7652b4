/-
  ObjcBindings.Proofs.TableContents
  ────────────────────────────────
  **WHAT THE TABLE OF A UNIT HOLDS.**

  Every table that registration builds is well formed: one definition for each
  USR, no stub among the definitions, and nothing but stubs beside them.  Then
  look-up by USR is membership:

      definition? usr = some d   ↔   d is a definition and has the USR
      find? usr = some d         →   d has the USR, and is a definition or a stub

  Main results:
    • `wellFormed_of_ofUnit` — the table of a unit is well formed,
    • `mem_children_of_ofUnit` — and holds only declarations of the unit.
-/
import ObjcBindings.Symbol.Table
import Mathlib.Data.List.Nodup

namespace ObjcBindings

namespace Table

/-! ## §1. Well-formed tables. -/

/-- Definitions have distinct USRs and are no stubs; stubs are. -/
structure WellFormed (t : Table) : Prop where
  distinct : (t.definitions.map Decl.usr).Nodup
  full : ∀ d ∈ t.definitions, d.isStub = false
  announced : ∀ d ∈ t.stubs, d.isStub = true

theorem wellFormed_empty : WellFormed {} :=
  ⟨List.nodup_nil, by simp, by simp⟩

/-- A USR without definition is that of none. -/
theorem definition?_eq_none_iff {t : Table} {usr : Usr} :
    t.definition? usr = none ↔ usr ∉ t.definitions.map Decl.usr := by
  unfold definition?
  rw [List.find?_eq_none]
  simp

/-- **What a registration does**: a stub joins the stubs, a new definition
joins the definitions, and a repeated one changes nothing. -/
theorem register_cases {t t' : Table} {x : Decl} (h : t.register x = .ok t') :
    (x.isStub = true ∧ t' = { t with stubs := t.stubs ++ [x] }) ∨
    (x.isStub = false ∧ t.definition? x.usr = none ∧
      t' = { t with definitions := t.definitions ++ [x] }) ∨
    (x.isStub = false ∧ t' = t ∧
      ∃ old, t.definition? x.usr = some old ∧ old.isRepeatedBy x = true) := by
  unfold register at h
  split at h
  · next hstub =>
    cases h
    exact .inl ⟨hstub, rfl⟩
  · next hfull =>
    have hfull : x.isStub = false := by simpa using hfull
    split at h
    · next hnew =>
      cases h
      exact .inr (.inl ⟨hfull, hnew, rfl⟩)
    · next old hold =>
      split at h
      · next hrepeat =>
        cases h
        exact .inr (.inr ⟨hfull, rfl, old, hold, hrepeat⟩)
      · cases h

/-- **One registration keeps the table well formed.** -/
theorem WellFormed.register {t t' : Table} {d : Decl} (h : t.WellFormed)
    (hr : t.register d = .ok t') : t'.WellFormed := by
  rcases register_cases hr with ⟨hstub, rfl⟩ | ⟨hfull, hnew, rfl⟩ | ⟨_, rfl, _⟩
  · -- A stub joins the stubs; the definitions stay as they are.
    refine ⟨h.distinct, h.full, ?_⟩
    intro x hx
    rcases List.mem_append.1 hx with hx | hx
    · exact h.announced x hx
    · rw [List.mem_singleton.1 hx]
      exact hstub
  · -- A definition joins the definitions only if its USR has none yet.
    refine ⟨?_, ?_, h.announced⟩
    · rw [List.map_append, List.nodup_append]
      refine ⟨h.distinct, by simp, ?_⟩
      intro a ha b hb hab
      have hbd : b = d.usr := by simpa using hb
      exact definition?_eq_none_iff.1 hnew (hbd ▸ hab ▸ ha)
    · intro x hx
      rcases List.mem_append.1 hx with hx | hx
      · exact h.full x hx
      · rw [List.mem_singleton.1 hx]
        exact hfull
  · exact h

/-- A registration adds nothing but the registered declaration. -/
theorem mem_register {t t' : Table} {d : Decl} (hr : t.register d = .ok t') :
    ∀ x ∈ t'.definitions ++ t'.stubs, x = d ∨ x ∈ t.definitions ++ t.stubs := by
  intro x hx
  rcases register_cases hr with ⟨_, rfl⟩ | ⟨_, _, rfl⟩ | ⟨_, rfl, _⟩
  · simp only [List.mem_append, List.mem_singleton] at hx ⊢
    tauto
  · simp only [List.mem_append, List.mem_singleton] at hx ⊢
    tauto
  · exact .inr hx

/-! ## §2. Runs of registrations. -/

/-- A run of registrations keeps the table well formed. -/
theorem WellFormed.registerAll :
    ∀ {ds : List Decl} {t t' : Table}, t.WellFormed →
      t.registerAll ds = .ok t' → t'.WellFormed
  | [], t, t', h, hr => by
      injection hr with hr
      exact hr ▸ h
  | d :: ds, t, t', h, hr => by
      simp only [Table.registerAll] at hr
      split at hr
      · cases hr
      · next t₁ hd => exact WellFormed.registerAll (h.register hd) hr

/-- A run adds nothing but the registered declarations. -/
theorem mem_registerAll :
    ∀ {ds : List Decl} {t t' : Table}, t.registerAll ds = .ok t' →
      ∀ x ∈ t'.definitions ++ t'.stubs, x ∈ ds ∨ x ∈ t.definitions ++ t.stubs
  | [], t, t', hr, x, hx => by
      injection hr with hr
      exact .inr (hr ▸ hx)
  | d :: ds, t, t', hr, x, hx => by
      simp only [registerAll] at hr
      split at hr
      · cases hr
      · next t₁ hd =>
        rcases mem_registerAll hr x hx with hx | hx
        · exact .inl (List.mem_cons_of_mem d hx)
        · rcases mem_register hd x hx with rfl | hx
          · exact .inl List.mem_cons_self
          · exact .inr hx

/-- **The table of a unit is well formed.** -/
theorem wellFormed_of_ofUnit {unit : TranslationUnit} {t : Table}
    (h : ofUnit unit = .ok t) : t.WellFormed :=
  wellFormed_empty.registerAll h

/-- The table of a unit holds only declarations of the unit. -/
theorem mem_children_of_ofUnit {unit : TranslationUnit} {t : Table}
    (h : ofUnit unit = .ok t) :
    ∀ d ∈ t.definitions ++ t.stubs, d ∈ unit.children := by
  intro d hd
  rcases mem_registerAll h d hd with hd | hd
  · exact hd
  · simp at hd

/-! ## §3. Look-up by USR. -/

/-- The definition of a USR has that USR. -/
theorem usr_of_definition? {t : Table} {usr : Usr} {d : Decl}
    (h : t.definition? usr = some d) : d.usr = usr := by
  simpa using List.find?_some h

/-- The definition of a USR is a definition. -/
theorem mem_of_definition? {t : Table} {usr : Usr} {d : Decl}
    (h : t.definition? usr = some d) : d ∈ t.definitions :=
  List.mem_of_find?_eq_some h

/-- A definition is what its USR leads to. -/
theorem WellFormed.definition?_of_mem {t : Table} (h : t.WellFormed) {d : Decl}
    (hd : d ∈ t.definitions) : t.definition? d.usr = some d := by
  cases hx : t.definition? d.usr with
  | none => exact absurd (List.mem_map_of_mem hd) (definition?_eq_none_iff.1 hx)
  | some x =>
    have hxd : x = d :=
      List.inj_on_of_nodup_map h.distinct (mem_of_definition? hx) hd (usr_of_definition? hx)
    rw [hxd]

/-- **Look-up by USR is membership.** -/
theorem WellFormed.definition?_eq_some_iff {t : Table} (h : t.WellFormed) {usr : Usr} {d : Decl} :
    t.definition? usr = some d ↔ d ∈ t.definitions ∧ d.usr = usr := by
  constructor
  · exact fun hd => ⟨mem_of_definition? hd, usr_of_definition? hd⟩
  · rintro ⟨hd, rfl⟩
    exact h.definition?_of_mem hd

/-- A definition is found under its USR. -/
theorem WellFormed.find?_of_mem {t : Table} (h : t.WellFormed) {d : Decl}
    (hd : d ∈ t.definitions) : t.find? d.usr = some d := by
  unfold find?
  rw [h.definition?_of_mem hd, Option.some_or]

/-- Two definitions of one USR are one. -/
theorem WellFormed.eq_of_usr_eq {t : Table} (h : t.WellFormed) {a b : Decl}
    (ha : a ∈ t.definitions) (hb : b ∈ t.definitions) (hab : a.usr = b.usr) : a = b :=
  List.inj_on_of_nodup_map h.distinct ha hb hab

/-- What is found is a definition, or a stub of a USR without one. -/
theorem mem_of_find? {t : Table} {usr : Usr} {d : Decl} (h : t.find? usr = some d) :
    d ∈ t.definitions ∨ d ∈ t.stubs ∧ t.isDefined usr = false := by
  unfold find? at h
  rcases Option.or_eq_some_iff.1 h with h | ⟨hn, h⟩
  · exact .inl (mem_of_definition? h)
  · exact .inr ⟨List.mem_of_find?_eq_some h, by simp [isDefined, hn]⟩

/-- What is found under a USR has that USR. -/
theorem usr_of_find? {t : Table} {usr : Usr} {d : Decl} (h : t.find? usr = some d) :
    d.usr = usr := by
  unfold find? at h
  rcases Option.or_eq_some_iff.1 h with h | ⟨_, h⟩
  · exact usr_of_definition? h
  · simpa using List.find?_some h

end Table

/-! ## §4. Declarations of small units. -/

/-- A definition that the front end made up: it belongs to the core module. -/
def Decl.implicit (usr name : String) (kind : DeclKind) : Decl :=
  ⟨usr, name, none, true, false, false, kind⟩

/-- A definition of the header `file`. -/
def Decl.inFile (file usr name : String) (kind : DeclKind) : Decl :=
  ⟨usr, name, some ⟨file, none⟩, false, false, false, kind⟩

/-- A use of the typedef with the name. -/
def TypeExpr.ofName (name : String) : TypeExpr := .typedef name ("t:" ++ name)

/-- An instance method with the given types. -/
def Decl.ofMethod (selector : String) (params : List TypeExpr) (result : TypeExpr) : Decl :=
  .implicit selector selector (.method
    { selector, isInstance := true, params := params.map (⟨"", ·, false⟩), result
      isVariadic := false, family := none, control := none, attrs := ⟨false, false⟩ })

end ObjcBindings
