/-
  ObjcBindings.Proofs.UnreferencedDeclarations
  ────────────────────────────────
  **C DECLARATIONS THAT NOTHING REFERS TO LEAVE NO TRACE.**

  Bindings are written for containers, and for what their methods refer to.  A
  function, a variable, a record, an enum, or a typedef that names no tag is
  noticed only if something refers to it:

      Unreferenced                    — nothing else has its USR or refers to it
      Unreferenced.agrees             — tables with and without it agree beside it
      bindings_ok_iff_of_unreferenced — so the bindings are the same

  Failures are not: a look-up that fails may suggest its USR.
-/
import ObjcBindings.Proofs.InsertedDeclaration
import Mathlib

namespace ObjcBindings

/-- The declaration is inert, no declaration before or after it has its USR,
and none refers to it. -/
structure Unreferenced (pre post : List Decl) (d : Decl) : Prop where
  inert : d.isInert = true
  fresh : ∀ x ∈ pre ++ post, x.usr ≠ d.usr
  unmentioned : ∀ x ∈ pre ++ post, d.usr ∉ x.mentioned

namespace Table

variable {t t' : Table} {d : Decl}

/-! ## §1. Definitions beside the declaration. -/

/-- The definitions are those of the second table with other USRs. -/
theorem Inserted.definitions (h : Inserted d t t') (hfresh : ∀ x ∈ t.definitions, x.usr ≠ d.usr) :
    t.definitions = t'.definitions.filter fun x => x.usr != d.usr := by
  have hkeep : t.definitions.filter (fun x => x.usr != d.usr) = t.definitions := by
    rw [List.filter_eq_self]
    exact fun x hx => bne_iff_ne.2 (hfresh x hx)
  cases h with
  | stub _ => exact hkeep.symm
  | definition _ =>
      rw [List.filter_append] at hkeep
      rw [List.filter_append, List.filter_cons, if_neg (by simp), hkeep]

theorem Inserted.mem_definitions (h : Inserted d t t') {x : Decl} (hx : x ∈ t'.definitions) :
    x = d ∨ x ∈ t.definitions := by
  cases h with
  | stub _ => exact .inr hx
  | definition _ =>
      simp only [List.mem_append, List.mem_cons] at hx ⊢
      tauto

end Table

/-! ## §2. Bindings. -/

namespace Unreferenced

variable {pre post : List Decl} {d : Decl}

/-- An inert declaration is neither an interface nor a protocol. -/
theorem isInterface_eq_false (hd : d.isInert = true) :
    d.isInterface = false ∧ d.isProtocol = false := by
  cases hk : d.kind <;> simp_all [Decl.isInert, Decl.isInterface, Decl.isProtocol]

/-- **Tables with and without the declaration agree on all other USRs.** -/
theorem agrees (h : Unreferenced pre post d) {t t' : Table}
    (ht : Table.ofUnit ⟨pre ++ post⟩ = .ok t) (hinserted : Table.Inserted d t t') :
    t.Agrees False (· != d.usr) t' := by
  have hmem := Table.mem_children_of_ofUnit ht
  obtain ⟨hinterface, hprotocol⟩ := isInterface_eq_false h.inert
  constructor
  case find =>
    -- The suggestions of the two failures may differ.
    intro usr husr
    unfold Table.find
    rw [hinserted.find? (bne_iff_ne.1 husr)]
    cases t.find? usr with
    | some x => exact .ok x
    | none => exact .error False.elim
  case definition? => exact fun usr husr => hinserted.definition? (.inr (bne_iff_ne.1 husr))
  case interfaceNamed =>
    intro name
    unfold Table.interfaceNamed Table.interfaceNamed?
    rw [hinserted.named? (by simp [hinterface])]
    cases t.named? fun x => x.isInterface && x.name == name with
    | some x => exact .ok x
    | none => exact .error False.elim
  case protocolNamed =>
    intro name
    unfold Table.protocolNamed Table.protocolNamed?
    rw [hinserted.named? (by simp [hprotocol])]
    cases t.named? fun x => x.isProtocol && x.name == name with
    | some x => exact .ok x
    | none => exact .error False.elim
  case definitions =>
    exact hinserted.definitions fun x hx => h.fresh x (hmem x (List.mem_append_left _ hx))
  case inert =>
    intro x hx husr
    rcases hinserted.mem_definitions hx with rfl | hx
    · exact h.inert
    · have hne := h.fresh x (hmem x (List.mem_append_left _ hx))
      simp [hne] at husr
  case declared => exact fun x hx => bne_iff_ne.2 (h.fresh x (hmem x hx))
  case within =>
    -- What the declaration itself refers to does not matter: only the first table's are asked.
    intro x hx usr husr
    refine bne_iff_ne.2 fun heq => h.unmentioned x (hmem x hx) ?_
    exact heq ▸ husr

end Unreferenced

/-- **A C declaration that nothing refers to has no influence on the
bindings**, wherever it stands in the unit and in the headers, and whatever it
refers to itself. -/
theorem bindings_ok_iff_of_unreferenced {pre post : List Decl} {d : Decl}
    (h : Unreferenced pre post d) (rules : List ModuleRule) (header : Option String)
    (out : Source) :
    TranslationUnit.bindings ⟨pre ++ post⟩ rules header = .ok out
      ↔ TranslationUnit.bindings ⟨pre ++ d :: post⟩ rules header = .ok out := by
  have hpaired : Table.Paired (Table.Inserted d) (Table.ofUnit ⟨pre ++ post⟩)
      (Table.ofUnit ⟨pre ++ d :: post⟩) := Table.ofUnit_insert (.inr h.fresh)
  exact (bindings_of_paired hpaired (fun t t' ht => h.agrees ht) rules header).ok_iff out

/-- A function of which neither the header nor the result type is known. -/
def strayFunction : Decl :=
  ⟨"f:log", "log", some ⟨"log.h", none⟩, false, false, false,
    .function (.functionNoProto (.record "s:Missing")) [] false false⟩

/-- The unit with types of every kind has the same bindings with it. -/
theorem canvas_bindings_with_stray :
    Unreferenced [] canvasUnit.children strayFunction ∧
      ∃ out, canvasUnit.bindings uiRules none = .ok out ∧
        TranslationUnit.bindings ⟨strayFunction :: canvasUnit.children⟩ uiRules none
          = .ok out := by
  have hstray : Unreferenced [] canvasUnit.children strayFunction :=
    ⟨by decide, by decide, by decide⟩
  obtain ⟨out, hout⟩ := canvasUnit_bound
  exact ⟨hstray, out, hout, (bindings_ok_iff_of_unreferenced hstray uiRules none out).1 hout⟩

end ObjcBindings
