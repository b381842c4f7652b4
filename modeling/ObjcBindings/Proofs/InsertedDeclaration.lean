/-
  ObjcBindings.Proofs.InsertedDeclaration
  ────────────────────────────────
  **A UNIT WITH ONE DECLARATION MORE.**

  A declaration stands in a unit between `pre` and `post`.  If it is a stub, or
  no other declaration has its USR, the rest is registered as without it: both
  runs fail with the same failure, or the second table holds the declaration in
  addition.

      Inserted          — the second table holds one declaration more
      Inserted.register — this stays so with every registration
      ofUnit_insert     — and it is so at the end
-/
import ObjcBindings.Proofs.BindingsAgreement
import Mathlib

namespace ObjcBindings

namespace Table

variable {t t' : Table} {d x : Decl} {usr : Usr}

/-! ## §1. Registrations. -/

theorem registerAll_append (t : Table) (xs ys : List Decl) :
    t.registerAll (xs ++ ys) = t.registerAll xs >>= fun t₁ => t₁.registerAll ys := by
  induction xs generalizing t with
  | nil => rfl
  | cons x xs ih =>
      rw [List.cons_append, registerAll, registerAll]
      cases t.register x with
      | error e => rfl
      | ok t₁ => exact ih t₁

/-! ## §2. Two runs of registrations. -/

/-- Both runs fail with the same failure, or end in tables in the relation. -/
inductive Paired (R : Table → Table → Prop) :
    Except Failure Table → Except Failure Table → Prop where
  | ok {t t' : Table} (related : R t t') : Paired R (.ok t) (.ok t')
  | error (e : Failure) : Paired R (.error e) (.error e)

/-- The second table holds `d` in addition, among the stubs if it is one. -/
inductive Inserted (d : Decl) : Table → Table → Prop where
  | stub {definitions before after : List Decl} (stub : d.isStub = true) :
      Inserted d ⟨definitions, before ++ after⟩ ⟨definitions, before ++ d :: after⟩
  | definition {before after stubs : List Decl} (full : d.isStub = false) :
      Inserted d ⟨before ++ after, stubs⟩ ⟨before ++ d :: after, stubs⟩

namespace Inserted

/-- A search passes over what does not have the property. -/
theorem find?_insert {p : Decl → Bool} (hp : p d = false) (before after : List Decl) :
    (before ++ d :: after).find? p = (before ++ after).find? p := by
  rw [List.find?_append, List.find?_append, List.find?_cons_of_neg (by simp [hp])]

/-- A stub is no definition of its USR, and neither is it one of another. -/
theorem definition? (h : Inserted d t t') (husr : d.isStub = true ∨ usr ≠ d.usr) :
    t'.definition? usr = t.definition? usr := by
  cases h with
  | stub _ => rfl
  | definition full =>
      have hne : usr ≠ d.usr := by simpa [full] using husr
      exact find?_insert (by simpa using hne.symm) _ _

/-- Other USRs lead to the same declarations. -/
theorem find? (h : Inserted d t t') (husr : usr ≠ d.usr) : t'.find? usr = t.find? usr := by
  have hstubs : t'.stubs.find? (·.usr == usr) = t.stubs.find? (·.usr == usr) := by
    cases h with
    | stub _ => exact find?_insert (by simpa using husr.symm) _ _
    | definition _ => rfl
  rw [Table.find?, Table.find?, h.definition? (.inr husr), hstubs]

/-- A declaration that does not have the property is not found by it. -/
theorem named? (h : Inserted d t t') {test : Decl → Bool} (htest : test d = false) :
    t'.named? test = t.named? test := by
  unfold Table.named?
  cases h with
  | stub _ => rw [find?_insert htest]
  | definition _ =>
      simp only [List.reverse_append, List.reverse_cons, List.append_assoc, List.cons_append,
        List.nil_append]
      rw [find?_insert htest]

/-- **A registration adds to both tables, or fails in both.** -/
theorem register (h : Inserted d t t') (hx : d.isStub = true ∨ x.usr ≠ d.usr) :
    Paired (Inserted d) (t.register x) (t'.register x) := by
  have hstub : Inserted d { t with stubs := t.stubs ++ [x] }
      { t' with stubs := t'.stubs ++ [x] } := by
    cases h with
    | stub stub => simpa using Inserted.stub stub
    | definition full => exact .definition full
  have hdefinition : Inserted d { t with definitions := t.definitions ++ [x] }
      { t' with definitions := t'.definitions ++ [x] } := by
    cases h with
    | stub stub => exact .stub stub
    | definition full => simpa using Inserted.definition full
  unfold Table.register
  rw [h.definition? hx]
  split
  · exact .ok hstub
  · split
    · exact .ok hdefinition
    · split
      · exact .ok h
      · exact .error _

/-- **So does a run of registrations.** -/
theorem registerAll : ∀ {xs : List Decl} {t t' : Table}, Inserted d t t' →
    (d.isStub = true ∨ ∀ x ∈ xs, x.usr ≠ d.usr) →
    Paired (Inserted d) (t.registerAll xs) (t'.registerAll xs)
  | [], t, t', h, _ => .ok h
  | x :: xs, t, t', h, hxs => by
      have hx : d.isStub = true ∨ x.usr ≠ d.usr :=
        hxs.imp_right fun hne => hne x List.mem_cons_self
      have hrest : d.isStub = true ∨ ∀ y ∈ xs, y.usr ≠ d.usr :=
        hxs.imp_right fun hne y hy => hne y (List.mem_cons_of_mem x hy)
      rw [Table.registerAll, Table.registerAll]
      generalize hr : t.register x = r, hr' : t'.register x = r'
      have hstep : Paired (Inserted d) r r' := hr ▸ hr' ▸ h.register hx
      cases hstep with
      | ok related => exact registerAll related hrest
      | error e => exact .error e

end Inserted

/-- The declaration joins a table in which its USR has no definition. -/
theorem register_insert (hd : d.isStub = true ∨ t.definition? d.usr = none) :
    ∃ t', t.register d = .ok t' ∧ Inserted d t t' := by
  unfold register
  cases hstub : d.isStub with
  | true =>
      refine ⟨_, if_pos rfl, ?_⟩
      have h : Inserted d ⟨t.definitions, t.stubs ++ []⟩ _ := .stub hstub
      rwa [List.append_nil] at h
  | false =>
      have hnew : t.definition? d.usr = none := by simpa [hstub] using hd
      refine ⟨_, by rw [if_neg (by simp), hnew], ?_⟩
      have h : Inserted d ⟨t.definitions ++ [], t.stubs⟩ _ := .definition hstub
      rwa [List.append_nil] at h

/-- **A unit with one declaration more** has the table of the other unit with
that declaration inserted, or neither has a table. -/
theorem ofUnit_insert {pre post : List Decl}
    (hd : d.isStub = true ∨ ∀ x ∈ pre ++ post, x.usr ≠ d.usr) :
    Paired (Inserted d) (ofUnit ⟨pre ++ post⟩) (ofUnit ⟨pre ++ d :: post⟩) := by
  unfold ofUnit
  rw [registerAll_append, registerAll_append]
  cases hpre : registerAll {} pre with
  | error e => exact .error e
  | ok t =>
      -- Nothing before it has its USR, so it is accepted if it is no stub.
      have hnew : d.isStub = true ∨ t.definition? d.usr = none := by
        refine hd.imp_right fun hne => definition?_eq_none_iff.2 fun hmem => ?_
        obtain ⟨x, hx, husr⟩ := List.mem_map.1 hmem
        rcases mem_registerAll hpre x (List.mem_append_left _ hx) with hx | hx
        · exact hne x (List.mem_append_left _ hx) husr
        · cases hx
      obtain ⟨t', hregister, hinserted⟩ := register_insert hnew
      show Paired _ (t.registerAll post) (t.registerAll (d :: post))
      rw [registerAll, hregister]
      exact hinserted.registerAll
        (hd.imp_right fun hne x hx => hne x (List.mem_append_right _ hx))

end Table

/-! ## §3. Bindings. -/

/-- **Units of which the tables agree, or neither has one, have the same
bindings or none.** -/
theorem bindings_of_paired {strict : Prop} {known : Usr → Bool} {unit unit' : TranslationUnit}
    {R : Table → Table → Prop} (h : Table.Paired R (Table.ofUnit unit) (Table.ofUnit unit'))
    (hR : ∀ t t', Table.ofUnit unit = .ok t → R t t' → t.Agrees strict known t')
    (rules : List ModuleRule) (header : Option String) :
    Alike strict (unit.bindings rules header) (unit'.bindings rules header) := by
  generalize ht : Table.ofUnit unit = r, ht' : Table.ofUnit unit' = r' at h
  cases h with
  | @ok t t' related => exact bindings_of_agrees ht ht' (hR t t' ht related) rules header
  | error e =>
      unfold TranslationUnit.bindings Scope.ofUnit
      rw [ht, ht']
      exact .refl _

/-- A unit with types of every kind has bindings. -/
theorem canvasUnit_bound : ∃ out, canvasUnit.bindings uiRules none = .ok out := by
  obtain ⟨hbare, s, plan, hunit, hplan⟩ := canvasUnit_planned
  have hs := Scope.wellFormed_of_ofUnit hunit
  have hb := Scope.hasBareStubs_of_ofUnit hunit hbare
  obtain ⟨modules, hmodules⟩ : ∃ modules, s.modulesOf plan = .ok modules := by
    refine collect_ok fun p hp => map_ok (Scope.moduleCode_ok ?_)
    exact Scope.emits_of_plan hs hb hplan (Scope.mem_listing_iff.1 hp)
  refine ⟨⟨none, modules⟩, bind_eq_ok_iff.2 ⟨s, hunit, bind_eq_ok_iff.2 ⟨plan, hplan, ?_⟩⟩⟩
  exact bind_eq_ok_iff.2 ⟨modules, hmodules, rfl⟩

end ObjcBindings
