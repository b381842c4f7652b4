/-
  ObjcBindings.Proofs.FittingTypes
  ────────────────────────────────
  **A TYPE THAT FITS IS SPELLED.**

  Whether a type can cross is asked first, and how it is written afterwards, by
  recursions that go different ways: the question follows typedefs and the
  fields of records, the spelling stops at names, and what stands behind a
  pointer has a question of its own.  Nothing but a module can be missing then:

    • `moduleOf_eq_error_iff` — why a declaration has no module,
    • `written` — a spelling is written, or one of the declarations that it
      names has no module,
    • `spelled_of_fits` — a type that fits has both spellings, and a pointer to
      a type that fits behind pointers has a raw one.

  Circular typedefs need no assumption: they do not fit.
-/
import ObjcBindings.Proofs.QuestionHistory
import ObjcBindings.Proofs.SpelledNames

namespace ObjcBindings

namespace Scope

variable {s : Scope} {current : String} {t : TypeExpr} {e : Failure}

/-! ## §1. Declarations without a module. -/

/-- The declaration has no module: no rule is made for its header, or it has no
header, although the front end did not make it up. -/
inductive LacksModule (s : Scope) (d : Decl) : Failure → Prop where
  | unruled {path : String} (located : d.file? = some path)
      (silent : ∀ rule ∈ s.rules ++ Layout.builtinRules, rule.moduleFor? path = none) :
      LacksModule s d (.unknownModule path)
  | unlocated (nowhere : d.file? = none) (declared : d.isImplicit = false) :
      LacksModule s d (.missingLocation d.usr)

/-- **Why a declaration has no module.** -/
theorem moduleOf_eq_error_iff {d : Decl} : s.moduleOf d = .error e ↔ s.LacksModule d e := by
  constructor
  · intro h
    unfold moduleOf Layout.moduleOf at h
    split at h
    · next path located =>
      unfold Layout.moduleOfPath at h
      split at h
      · cases h
      · next silent =>
        cases h
        exact .unruled located (List.findSome?_eq_none_iff.1 silent)
    · next nowhere =>
      split at h
      · cases h
      · next declared =>
        cases h
        exact .unlocated nowhere (Bool.not_eq_true _ ▸ declared)
  · intro h
    unfold moduleOf Layout.moduleOf
    cases h with
    | unruled located silent =>
        simp only [located, Layout.moduleOfPath, List.findSome?_eq_none_iff.2 silent]
    | unlocated nowhere declared => simp [nowhere, declared]

/-! ## §2. Writing a spelling. -/

/-- The result is there, or it fails because one of the declarations that `r`
names has no module. -/
def Written {α : Type} (s : Scope) (r : RustType) (result : Except Failure α) : Prop :=
  (∃ x, result = .ok x) ∨ ∃ e, result = .error e ∧ ∃ named ∈ r.names, s.LacksModule named.2 e

theorem Written.map {α β : Type} {r : RustType} {result : Except Failure α} (f : α → β)
    (h : s.Written r result) : s.Written r (result.map f) := by
  rcases h with ⟨x, rfl⟩ | ⟨e, rfl, hnames⟩
  · exact .inl ⟨f x, rfl⟩
  · exact .inr ⟨e, rfl, hnames⟩

/-- **A spelling is written, or a module is missing.** -/
theorem written (s : Scope) (current : String) : ∀ r : RustType, s.Written r (s.write current r)
  | .fixed text => .inl ⟨text, rfl⟩
  | .named ident d => by
      rw [write, qualify]
      cases hm : s.moduleOf d with
      | ok module => exact .inl ⟨qualifyIn module ident current, rfl⟩
      | error e =>
          exact .inr ⟨e, rfl, (ident, d), List.mem_cons_self, moduleOf_eq_error_iff.1 hm⟩
  | .pointer target => (s.written current target).map _
  | .array element _ => (s.written current element).map _

/-! ## §3. Types that fit. -/

/-- Nothing is asked of the types that are spelled, nor of what they name. -/
theorem namesIn_any (s : Scope) : s.NamesIn (fun _ => True) fun _ _ => True where
  below _ _ := trivial
  typedef _ _ _ _ _ := trivial
  record _ _ _ := trivial
  enum _ _ _ := trivial
  interface _ := trivial

/-- A fresh question that is answered yes. -/
theorem affirms_of_ask {q : Question} (h : (s.ask q []).1 = .ok true) : s.Affirms q := by
  have hjust := s.ask_just q (Memory.sound_nil s)
  exact (hjust.exact (Prod.ext h rfl)).1.1 rfl

/-- The type has a raw spelling, which is written unless a module is missing. -/
def RawSpelled (s : Scope) (current : String) (t : TypeExpr) : Prop :=
  ∃ r, s.rawType [] t = .ok r ∧ s.Written r (s.raw current t)

/-- The type has a safe spelling, which is written unless a module is
missing. -/
def SafeSpelled (s : Scope) (current : String) (t : TypeExpr) : Prop :=
  ∃ form, s.safeForm [] t = .ok form ∧ s.Written form.type (s.safe current t)

theorem rawSpelled_of_crosses {use : Use} (h : s.Crosses use t) : s.RawSpelled current t := by
  obtain ⟨r, hr, _⟩ := s.namesIn_any.rawType h (fresh_nil t) trivial
  refine ⟨r, hr, ?_⟩
  rw [raw, hr]
  exact s.written current r

theorem safeSpelled_of_crosses {use : Use} (h : s.Crosses use t) : s.SafeSpelled current t := by
  obtain ⟨form, hform, _⟩ := s.namesIn_any.safeForm h (fresh_nil t) trivial
  refine ⟨form, hform, ?_⟩
  rw [safe, hform]
  exact (s.written current form.type).map _

/-- **A type that fits is spelled in both layers**, and a pointer to a type
that fits behind pointers in the raw one; only a module can be missing for a
declaration that is named. -/
theorem spelled_of_fits (s : Scope) (current : String) (t : TypeExpr) :
    ((s.typeFits t []).1 = .ok true → s.RawSpelled current t ∧ s.SafeSpelled current t) ∧
    ((s.pointeeFits t []).1 = .ok true →
      s.RawSpelled current (.pointer t) ∧ s.RawSpelled current (.decayed t)) := by
  constructor
  · intro h
    have hcrosses : s.Crosses .value t := affirms_of_ask (q := .value t) h
    exact ⟨rawSpelled_of_crosses hcrosses, safeSpelled_of_crosses hcrosses⟩
  · intro h
    have hcrosses : s.Crosses .pointee t := affirms_of_ask (q := .pointee t) h
    have hpointer : s.Crosses .value (.pointer t) := .pointer hcrosses
    have hdecayed : s.Crosses .value (.decayed t) := .decayed hcrosses
    exact ⟨rawSpelled_of_crosses hpointer, rawSpelled_of_crosses hdecayed⟩

end Scope

/-! ## §4. A small scope. -/

/-- A struct of the core module whose field is a typedef of a header without a
rule, and a typedef of it that is merged with it. -/
def strayScope : Scope where
  table :=
    { definitions :=
        [.inFile "lost.h" "t:Word" "Word" (.typedef (.builtin "UInt")),
         .implicit "s:Size" "_Size" (.record
           [.implicit "w" "w" (.field (.ofName "Word") none)] .struct),
         .implicit "t:Size" "Size" (.typedef (.record "s:Size"))] }
  used := {}
  rules := []
  tagNames :=
    [("s:Size", .implicit "t:Size" "Size" (.typedef (.record "s:Size")))]

/-- Both types fit as values, and behind pointers, too.  The struct is spelled
in every layer; the typedef has a spelling, but its header has no module. -/
theorem stray_spelled_of_fits :
    (strayScope.typeFits (.ofName "Size") []).1 = .ok true ∧
    (strayScope.pointeeFits (.ofName "Word") []).1 = .ok true ∧
    strayScope.RawSpelled "ui" (.ofName "Size") ∧ strayScope.SafeSpelled "ui" (.ofName "Size") ∧
    strayScope.raw "ui" (.ofName "Size") = .ok "super::core::Size" ∧
    strayScope.RawSpelled "ui" (.pointer (.ofName "Word")) ∧
    strayScope.raw "ui" (.pointer (.ofName "Word")) = .error (.unknownModule "lost.h") := by
  have hvalue : (strayScope.typeFits (.ofName "Size") []).1 = .ok true := by cbv
  have hpointee : (strayScope.pointeeFits (.ofName "Word") []).1 = .ok true := by cbv
  obtain ⟨hraw, hsafe⟩ := (strayScope.spelled_of_fits "ui" (.ofName "Size")).1 hvalue
  obtain ⟨hpointer, _⟩ := (strayScope.spelled_of_fits "ui" (.ofName "Word")).2 hpointee
  exact ⟨hvalue, hpointee, hraw, hsafe, by cbv, hpointer, by cbv⟩

end ObjcBindings
