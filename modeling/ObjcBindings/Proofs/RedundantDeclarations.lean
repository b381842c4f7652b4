/-
  ObjcBindings.Proofs.RedundantDeclarations
  ────────────────────────────────
  **REDUNDANT DECLARATIONS ARE INVISIBLE.**

  Headers announce what they define elsewhere, and define things twice.  A stub
  beside a definition of the same USR, kind and name is found by no look-up,
  and the repetition of a definition does not even enter the table:

      announces   — a stub, before or after the definition it announces
      repeats     — a definition, after the first of its USR, which it repeats

  Failures suggest close names.  They do not change either, because the best
  suggestion depends only on which candidates there are (`best?_congr`), not on
  their order or number:

      agrees_of_announced     — the tables with and without the stub agree
      ofUnit_of_repeats       — the table with and without the repetition
      bindings_of_redundant   — the same bindings, or the same failure
-/
import ObjcBindings.Proofs.InsertedDeclaration
import ObjcBindings.Proofs.RankedSuggestions
import Mathlib

namespace ObjcBindings

/-! ## §1. What is defined. -/

namespace Decl

/-- The declaration has the USR and is no stub. -/
def defines (d : Decl) (usr : Usr) : Bool := !d.isStub && d.usr == usr

/-- Interfaces, by the name of their kind. -/
theorem isInterface_iff {d : Decl} : d.isInterface = true ↔ d.kindName = "ObjCInterface" := by
  cases hk : d.kind <;> simp [isInterface, kindName, DeclKind.name, hk]

/-- Protocols, by the name of theirs. -/
theorem isProtocol_iff {d : Decl} : d.isProtocol = true ↔ d.kindName = "ObjCProtocol" := by
  cases hk : d.kind <;> simp [isProtocol, kindName, DeclKind.name, hk]

/-- The repetition of a declaration that is found by its name has that name. -/
theorem eq_of_isRepeatedBy {old new : Decl} (h : old.isRepeatedBy new = true)
    (hnew : new.isInterface = true ∨ new.isProtocol = true) :
    old.kindName = new.kindName ∧ old.name = new.name := by
  unfold isRepeatedBy at h
  split at h
  · next hk => simp [isInterface, isProtocol, hk] at hnew
  · next hk => simp [isInterface, isProtocol, hk] at hnew
  · next hk => simp [isInterface, isProtocol, hk] at hnew
  · obtain ⟨hname, hkind⟩ := Bool.and_eq_true_iff.1 h
    exact ⟨by rw [kindName, kindName, eq_of_beq hkind], eq_of_beq hname⟩

end Decl

namespace Table

variable {t t' : Table} {d x y : Decl} {usr : Usr}

/-- A definition stays. -/
theorem definitions_subset_register (h : t.register x = .ok t') :
    t.definitions ⊆ t'.definitions := by
  rcases register_cases h with ⟨_, rfl⟩ | ⟨_, _, rfl⟩ | ⟨_, rfl, _⟩
  · exact List.Subset.refl _
  · exact List.subset_append_left _ _
  · exact List.Subset.refl _

/-- A run keeps all definitions. -/
theorem definitions_subset_registerAll :
    ∀ {xs : List Decl} {t t' : Table}, t.registerAll xs = .ok t' →
      t.definitions ⊆ t'.definitions
  | [], _, _, h => by
      cases h
      exact List.Subset.refl _
  | x :: xs, _, _, h => by
      unfold registerAll at h
      split at h
      · cases h
      · next hx =>
        exact fun _ hmem => definitions_subset_registerAll h (definitions_subset_register hx hmem)

/-- What is no stub is a definition afterwards, or repeats one. -/
theorem exists_definition_of_register (h : t.register x = .ok t') (hx : x.isStub = false) :
    ∃ y ∈ t'.definitions, y.usr = x.usr ∧ (y = x ∨ y.isRepeatedBy x = true) := by
  rcases register_cases h with ⟨hstub, _⟩ | ⟨_, _, rfl⟩ | ⟨_, rfl, old, hold, hrepeat⟩
  · rw [hx] at hstub
    cases hstub
  · exact ⟨x, List.mem_append_right _ List.mem_cons_self, rfl, .inl rfl⟩
  · exact ⟨old, mem_of_definition? hold, usr_of_definition? hold, .inr hrepeat⟩

/-- A definition of a run is there afterwards, or repeats one that is. -/
theorem exists_definition_of_registerAll :
    ∀ {xs : List Decl} {t t' : Table}, t.registerAll xs = .ok t' → x ∈ xs →
      x.isStub = false → ∃ y ∈ t'.definitions, y.usr = x.usr ∧ (y = x ∨ y.isRepeatedBy x = true)
  | z :: xs, t, t', h, hmem, hx => by
      unfold registerAll at h
      split at h
      · cases h
      · next hz =>
        rcases List.mem_cons.1 hmem with rfl | hmem
        · obtain ⟨y, hy, husr, hrepeat⟩ := exists_definition_of_register hz hx
          exact ⟨y, definitions_subset_registerAll h hy, husr, hrepeat⟩
        · exact exists_definition_of_registerAll h hmem hx

/-- A registration defines a USR only if nothing did before. -/
theorem definition?_register (h : t.register x = .ok t') (usr : Usr) :
    t'.definition? usr = (t.definition? usr).or ([x].find? (·.defines usr)) := by
  rcases register_cases h with ⟨hstub, rfl⟩ | ⟨hfull, hnew, rfl⟩ | ⟨hfull, rfl, old, hold, _⟩
  · simp [definition?, Decl.defines, hstub]
  · simp [definition?, Decl.defines, hfull, List.find?_append]
  · by_cases husr : x.usr = usr
    · subst husr
      rw [hold, Option.some_or]
    · simp [Decl.defines, husr]

/-- **The definition of a USR is the first one that was registered.** -/
theorem definition?_registerAll (usr : Usr) :
    ∀ {xs : List Decl} {t t' : Table}, t.registerAll xs = .ok t' →
      t'.definition? usr = (t.definition? usr).or (xs.find? (·.defines usr))
  | [], _, _, h => by
      cases h
      simp
  | x :: xs, t, t', h => by
      unfold registerAll at h
      split at h
      · cases h
      · next hx =>
        rw [definition?_registerAll usr h, definition?_register hx, Option.or_assoc,
          ← List.find?_append, List.singleton_append]

/-! ## §2. A stub beside its definition. -/

section Announced

variable (h : Inserted d t t') (hstub : d.isStub = true) (hy : y ∈ t.definitions)
include h hstub

/-- An inserted stub leaves the definitions. -/
theorem Inserted.definitions_of_isStub : t'.definitions = t.definitions := by
  cases h with
  | stub _ => rfl
  | definition full =>
      rw [hstub] at full
      cases full

theorem Inserted.mem_of_isStub :
    x ∈ t'.definitions ++ t'.stubs ↔ x = d ∨ x ∈ t.definitions ++ t.stubs := by
  cases h with
  | stub _ =>
      simp only [List.mem_append, List.mem_cons]
      tauto
  | definition full =>
      rw [hstub] at full
      cases full

include hy

/-- The stub is found under no USR: its own has a definition. -/
theorem Inserted.find?_of_announced (husr : y.usr = d.usr) (usr : Usr) :
    t'.find? usr = t.find? usr := by
  by_cases hd : usr = d.usr
  · -- A definition goes before all stubs.
    have hdefined : t.definition? usr ≠ none := by
      rw [hd, ← husr, Ne, definition?_eq_none_iff, not_not]
      exact List.mem_map_of_mem hy
    obtain ⟨z, hz⟩ := Option.ne_none_iff_exists'.1 hdefined
    rw [Table.find?, Table.find?, h.definition? (.inl hstub), hz, Option.some_or, Option.some_or]
  · exact h.find? hd

/-- Nor by a property that the definition has, too. -/
theorem Inserted.named?_of_announced {test : Decl → Bool} (htest : test d = true → test y = true) :
    t'.named? test = t.named? test := by
  cases hd : test d with
  | false => exact h.named? hd
  | true =>
      have hfound : t.definitions.reverse.find? test ≠ none := by
        rw [Ne, List.find?_eq_none]
        exact fun hnone => hnone y (List.mem_reverse.2 hy) (htest hd)
      obtain ⟨z, hz⟩ := Option.ne_none_iff_exists'.1 hfound
      rw [Table.named?, Table.named?, h.definitions_of_isStub hstub, hz, Option.some_or,
        Option.some_or]

/-- Nor by its name: the definition has that name, too, and it is suggested
instead. -/
theorem Inserted.lookup_of_announced {test : Decl → Bool}
    (htest : test d = true → test y = true ∧ y.name = d.name) (name : String) :
    t'.named? (fun x => test x && x.name == name) = t.named? (fun x => test x && x.name == name) ∧
      Suggestion.best? name (t'.namesOf test) 3 = Suggestion.best? name (t.namesOf test) 3 := by
  constructor
  · refine h.named?_of_announced hstub hy fun hd => ?_
    obtain ⟨hd, hname⟩ := Bool.and_eq_true_iff.1 hd
    obtain ⟨hytest, hyname⟩ := htest hd
    rw [hytest, hyname, hname, Bool.and_self]
  · refine Suggestion.best?_congr name (fun n => ?_) 3
    simp only [Table.namesOf, List.mem_map, List.mem_filter, h.mem_of_isStub hstub]
    constructor
    · rintro ⟨x, ⟨rfl | hx, hxtest⟩, rfl⟩
      · obtain ⟨hytest, hyname⟩ := htest hxtest
        exact ⟨y, ⟨List.mem_append_left _ hy, hytest⟩, hyname⟩
      · exact ⟨x, ⟨hx, hxtest⟩, rfl⟩
    · rintro ⟨x, ⟨hx, hxtest⟩, rfl⟩
      exact ⟨x, ⟨.inr hx, hxtest⟩, rfl⟩

/-- **The tables with and without the stub agree on all look-ups**, also on
how they fail. -/
theorem Inserted.agrees_of_announced (husr : y.usr = d.usr)
    (hinterface : d.isInterface = true → y.isInterface = true ∧ y.name = d.name)
    (hprotocol : d.isProtocol = true → y.isProtocol = true ∧ y.name = d.name) :
    t.Agrees True (fun _ => true) t' := by
  constructor
  case find =>
    intro usr _
    -- The stub brings no USR of its own, since `y` has it already.
    have husrs : ∀ u, u ∈ t.usrs ↔ u ∈ t'.usrs := by
      intro u
      simp only [Table.usrs, List.mem_map, h.mem_of_isStub hstub]
      constructor
      · rintro ⟨x, hx, rfl⟩
        exact ⟨x, .inr hx, rfl⟩
      · rintro ⟨x, rfl | hx, rfl⟩
        · exact ⟨y, List.mem_append_left _ hy, husr⟩
        · exact ⟨x, hx, rfl⟩
    refine .of_eq ?_
    rw [Table.find, Table.find, h.find?_of_announced hstub hy husr,
      Suggestion.best?_congr usr husrs]
  case definition? => exact fun usr _ => h.definition? (.inl hstub)
  case interfaceNamed =>
    intro name
    obtain ⟨hnamed, hbest⟩ := h.lookup_of_announced hstub hy hinterface name
    refine .of_eq ?_
    simp only [Table.interfaceNamed, Table.interfaceNamed?, hnamed, hbest]
  case protocolNamed =>
    intro name
    obtain ⟨hnamed, hbest⟩ := h.lookup_of_announced hstub hy hprotocol name
    refine .of_eq ?_
    simp only [Table.protocolNamed, Table.protocolNamed?, hnamed, hbest]
  case definitions => rw [h.definitions_of_isStub hstub, List.filter_true]
  case inert => exact fun _ _ hfalse => by cases hfalse
  case declared => exact fun _ _ => rfl
  case within => exact fun _ _ _ _ => rfl

end Announced

/-! ## §3. A repeated definition. -/

/-- **A repetition of the first definition of a USR does not enter the
table.** -/
theorem ofUnit_of_repeats {pre post : List Decl} {first : Decl} (hfull : d.isStub = false)
    (hfirst : pre.find? (·.defines d.usr) = some first) (hrepeat : first.isRepeatedBy d = true) :
    ofUnit ⟨pre ++ d :: post⟩ = ofUnit ⟨pre ++ post⟩ := by
  unfold ofUnit
  rw [registerAll_append, registerAll_append]
  cases hpre : registerAll {} pre with
  | error e => rfl
  | ok t =>
      have hdefinition : t.definition? d.usr = some first := by
        rw [definition?_registerAll d.usr hpre, hfirst]
        rfl
      show t.registerAll (d :: post) = t.registerAll post
      rw [registerAll, register, if_neg (by simp [hfull]), hdefinition]
      simp [hrepeat]

end Table

/-! ## §4. Bindings. -/

/-- The declaration adds nothing between `pre` and `post`. -/
inductive Redundant (pre post : List Decl) (d : Decl) : Prop where
  /-- It announces a declaration of the unit. -/
  | announces {x : Decl} (stub : d.isStub = true) (mem : x ∈ pre ++ post)
      (full : x.isStub = false) (usr : x.usr = d.usr) (kind : x.kindName = d.kindName)
      (name : x.name = d.name)
  /-- It repeats the first declaration of its USR that is no stub. -/
  | repeats {first : Decl} (full : d.isStub = false)
      (earliest : pre.find? (·.defines d.usr) = some first)
      (compatible : first.isRepeatedBy d = true)

/-- A stub and the definition that it announces, or that is repeated by what
it announces. -/
theorem Redundant.agrees_of_announces {pre post : List Decl} {d x : Decl} {t t' : Table}
    (ht : Table.ofUnit ⟨pre ++ post⟩ = .ok t) (h : Table.Inserted d t t')
    (hstub : d.isStub = true) (hmem : x ∈ pre ++ post) (hfull : x.isStub = false)
    (husr : x.usr = d.usr) (hkind : x.kindName = d.kindName) (hname : x.name = d.name) :
    t.Agrees True (fun _ => true) t' := by
  obtain ⟨y, hy, hyusr, hrepeat⟩ := Table.exists_definition_of_registerAll ht hmem hfull
  -- Names matter for interfaces and protocols only, and these repeat no other name.
  have hsame (hx : x.isInterface = true ∨ x.isProtocol = true) :
      y.kindName = d.kindName ∧ y.name = d.name := by
    rcases hrepeat with rfl | hrepeat
    · exact ⟨hkind, hname⟩
    · obtain ⟨hk, hn⟩ := Decl.eq_of_isRepeatedBy hrepeat hx
      exact ⟨hk.trans hkind, hn.trans hname⟩
  refine h.agrees_of_announced hstub hy (hyusr.trans husr) (fun hd => ?_) (fun hd => ?_)
  · rw [Decl.isInterface_iff] at hd
    obtain ⟨hk, hn⟩ := hsame (.inl (Decl.isInterface_iff.2 (hkind.trans hd)))
    exact ⟨Decl.isInterface_iff.2 (hk.trans hd), hn⟩
  · rw [Decl.isProtocol_iff] at hd
    obtain ⟨hk, hn⟩ := hsame (.inr (Decl.isProtocol_iff.2 (hkind.trans hd)))
    exact ⟨Decl.isProtocol_iff.2 (hk.trans hd), hn⟩

/-- **A redundant declaration changes nothing**: the bindings are the same, or
the failure is. -/
theorem bindings_of_redundant {pre post : List Decl} {d : Decl} (h : Redundant pre post d)
    (rules : List ModuleRule) (header : Option String) :
    TranslationUnit.bindings ⟨pre ++ d :: post⟩ rules header
      = TranslationUnit.bindings ⟨pre ++ post⟩ rules header := by
  cases h with
  | announces stub mem full usr kind name =>
      -- The stub enters the table, but look-ups cannot tell.
      have hpaired : Table.Paired (Table.Inserted d) (Table.ofUnit ⟨pre ++ post⟩)
          (Table.ofUnit ⟨pre ++ d :: post⟩) := Table.ofUnit_insert (.inl stub)
      have halike := bindings_of_paired hpaired (fun t t' ht hinserted =>
        Redundant.agrees_of_announces ht hinserted stub mem full usr kind name) rules header
      exact (halike.eq_of_strict trivial).symm
  | repeats full earliest compatible =>
      unfold TranslationUnit.bindings Scope.ofUnit
      rw [Table.ofUnit_of_repeats full earliest compatible]

/-- A forward declaration of the class that a unit defines. -/
def canvasForward : Decl :=
  ⟨"c:Canvas", "Canvas", some ⟨"forward.h", none⟩, false, false, true, .interface [] [] none []⟩

/-- A typedef of a unit, once more. -/
def wordAgain : Decl := .inFile "again.h" "t:Word" "Word" (.typedef (.builtin "UInt"))

/-- The unit with types of every kind has the same bindings with either. -/
theorem canvas_bindings_with_redundant :
    Redundant [] canvasUnit.children canvasForward ∧ Redundant canvasUnit.children [] wordAgain ∧
      ∃ out, canvasUnit.bindings uiRules none = .ok out ∧
        TranslationUnit.bindings ⟨canvasForward :: canvasUnit.children⟩ uiRules none = .ok out ∧
        TranslationUnit.bindings ⟨canvasUnit.children ++ [wordAgain]⟩ uiRules none
          = .ok out := by
  have hforward : Redundant [] canvasUnit.children canvasForward := by
    obtain ⟨x, hx⟩ : ∃ x, canvasUnit.children[6]? = some x := ⟨_, rfl⟩
    refine .announces (x := x) rfl (List.mem_of_getElem? hx) ?_ ?_ ?_ ?_ <;> cases hx <;> decide
  have hagain : Redundant canvasUnit.children [] wordAgain :=
    .repeats (by decide) rfl (beq_self_eq_true (TypeExpr.builtin "UInt"))
  obtain ⟨out, hout⟩ := canvasUnit_bound
  refine ⟨hforward, hagain, out, hout, ?_, ?_⟩
  · exact (bindings_of_redundant hforward uiRules none).trans hout
  · have hsame := bindings_of_redundant hagain uiRules none
    rw [List.append_nil] at hsame
    exact hsame.trans hout

end ObjcBindings
