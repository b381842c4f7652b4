/-
  ObjcBindings.Failure
  ────────────────────────────────
  **WHAT CAN GO WRONG, AND HOW IT IS SAID.**

  A failure ends a run.  A method that merely cannot be bound is left out
  before it can become one.
-/
import ObjcBindings.Schema.Decl
import ObjcBindings.Text.Json

namespace ObjcBindings

open Text (Fault)

/-! ## §1. Causes. -/

/-- Why a module rule cannot be used. -/
inductive RuleFault where
  /-- The pattern is not a regular expression. -/
  | pattern
  /-- Nothing says which module the rule leads to. -/
  | noTarget
  deriving DecidableEq, Repr

/-- The containers that are looked up by name. -/
inductive NamedKind where
  | interface
  | protocol
  deriving DecidableEq, Repr

/-- A cause that ends a run. -/
inductive Failure where
  /-- A file could not be read as text. -/
  | unreadable (path : String) (reason : String)
  /-- A text is no JSON of the expected shape. -/
  | json (fault : Fault)
  /-- The root of the dump is something else than a translation unit. -/
  | notTranslationUnit (kind : String)
  /-- No declaration has this USR. -/
  | declarationNotFound (usr : Usr) (suggestion : Option String)
  /-- No interface or protocol has this name. -/
  | nameNotFound (kind : NamedKind) (name : String) (suggestion : Option String)
  /-- Two definitions of one USR contradict each other. -/
  | duplicateDeclaration (usr : Usr) (first second : String)
  /-- A reference leads to a declaration of the wrong kind. -/
  | unexpectedKind (usr : Usr) (expected found : String)
  /-- No rule assigns this header to a module. -/
  | unknownModule (path : String)
  /-- A declaration that the front end did not make up has no location. -/
  | missingLocation (usr : Usr)
  /-- A type without a counterpart in the generated code. -/
  | unsupportedType (className : String) (context : String)
  /-- A primitive type outside the known ones. -/
  | unknownPrimitive (name : String) (suggestion : Option String)
  /-- A module rule that cannot be used. -/
  | invalidRule (pattern : String) (fault : RuleFault)
  /-- A typedef or enum that is defined through itself. -/
  | circular (usr : Usr)
  deriving DecidableEq, Repr

/-! ## §2. Wording. -/

/-- The hint at the end of a message about an unknown name. -/
def didYouMean : Option String → String
  | some s => " (did you mean '" ++ s ++ "'?)"
  | none => ""

/-- The word for a kind of container. -/
def NamedKind.word : NamedKind → String
  | .interface => "interface"
  | .protocol => "protocol"

/-- Why a text is not the JSON that was expected. -/
def faultText : Fault → String
  | .truncated => "the text ends too early"
  | .malformed => "the text is not JSON"
  | .mismatch => "the text has the wrong shape"

/-- Why a rule cannot be used. -/
def RuleFault.text : RuleFault → String
  | .pattern => "regex parse error"
  | .noTarget => "pattern needs a capture group or an explicit module"

/-- What a failure says. -/
def Failure.message : Failure → String
  | .unreadable path reason => "failed to read AST file " ++ path ++ ": " ++ reason
  | .json fault => "failed to parse AST JSON: " ++ faultText fault
  | .notTranslationUnit kind => "root node is '" ++ kind ++ "', expected TranslationUnit"
  | .declarationNotFound usr suggestion =>
      "declaration not found: " ++ usr ++ didYouMean suggestion
  | .nameNotFound kind name suggestion =>
      "no " ++ kind.word ++ " named '" ++ name ++ "'" ++ didYouMean suggestion
  | .duplicateDeclaration usr first second =>
      "conflicting declarations for " ++ usr ++ " (" ++ first ++ " vs " ++ second ++ ")"
  | .unexpectedKind usr expected found =>
      usr ++ " is " ++ found ++ ", expected " ++ expected
  | .unknownModule path => "no module rule matches header path '" ++ path ++ "'"
  | .missingLocation usr =>
      "declaration " ++ usr ++ " has no location and is not implicit"
  | .unsupportedType className context =>
      "unsupported type " ++ className ++ " reached from " ++ context
  | .unknownPrimitive name suggestion =>
      "unknown builtin type '" ++ name ++ "'" ++ didYouMean suggestion
  | .invalidRule pattern fault =>
      "invalid module rule '" ++ pattern ++ "': " ++ fault.text
  | .circular usr => "declaration " ++ usr ++ " is defined through itself"

/-- The failure of a reference that leads to `d` instead of an `expected`
declaration. -/
def Decl.unexpected (d : Decl) (expected : String) : Failure :=
  .unexpectedKind d.usr expected d.kindName

/-! ## §3. Steps that can fail. -/

section Steps

variable {ε α β : Type} {x : Except ε α}

/-- Two steps succeed if the second does after the first. -/
theorem bind_eq_ok_iff {f : α → Except ε β} {b : β} :
    x >>= f = .ok b ↔ ∃ a, x = .ok a ∧ f a = .ok b := by
  cases x with
  | error e => simp [bind, Except.bind]
  | ok a => simp [bind, Except.bind]

/-- Two steps fail if the first does, or the second after the first. -/
theorem bind_eq_error_iff {f : α → Except ε β} {e : ε} :
    x >>= f = .error e ↔ x = .error e ∨ ∃ a, x = .ok a ∧ f a = .error e := by
  cases x with
  | error e' => simp [bind, Except.bind]
  | ok a => simp [bind, Except.bind]

/-- What succeeds has a result. -/
theorem exists_eq_ok_of_isOk (h : x.isOk = true) : ∃ a, x = .ok a := by
  cases x with
  | error e => cases h
  | ok a => exact ⟨a, rfl⟩

/-- A mapped step succeeds if the step does. -/
theorem map_eq_ok_iff {f : α → β} {b : β} :
    x.map f = .ok b ↔ ∃ a, x = .ok a ∧ f a = b := by
  cases x with
  | error e => simp [Except.map]
  | ok a => simp [Except.map]

/-- Two steps that succeed, one after the other. -/
theorem bind_ok {f : α → Except ε β} (hx : ∃ a, x = .ok a)
    (hf : ∀ a, ∃ b, f a = .ok b) : ∃ b, x >>= f = .ok b := by
  obtain ⟨a, ha⟩ := hx
  obtain ⟨b, hb⟩ := hf a
  exact ⟨b, bind_eq_ok_iff.2 ⟨a, ha, hb⟩⟩

theorem map_ok {f : α → β} (hx : ∃ a, x = .ok a) : ∃ b, x.map f = .ok b := by
  obtain ⟨a, ha⟩ := hx
  exact ⟨f a, map_eq_ok_iff.2 ⟨a, ha, rfl⟩⟩

end Steps

end ObjcBindings
