/-
  ObjcBindings.Settings
  ────────────────────────────────
  **THE SETTINGS FILE.**

  Settings say how headers become dumps, which rules assign headers to modules
  before the built-in ones, and which comment stands above the generated code.
  Every part may be left out.

      ofText       — the settings of a text, checked
      moduleRules  — the rules of the settings
      banner       — the comment above the generated code
-/
import ObjcBindings.Bindings.Source
import ObjcBindings.Header.Rule
import ObjcBindings.Sdk
import ObjcBindings.Text.Substring
import ObjcBindings.Text.Toml.Reader

namespace ObjcBindings

open Text

/-! ## §1. Settings. -/

/-- How headers become dumps. -/
structure Producer where
  /-- The program that writes a dump. -/
  path : String := "objc-ast-dump"
  sdk : String := "macosx"
  language : String := "objective-c"
  /-- Further flags of the compiler. -/
  flags : List String := []
  deriving DecidableEq, Repr

/-- The text of a module rule. -/
structure RuleText where
  pattern : String
  /-- The module of all matches; else the first group names it. -/
  module : Option String
  deriving DecidableEq, Repr

/-- Everything a settings file says. -/
structure Settings where
  producer : Producer := {}
  rules : List RuleText := []
  /-- The comment above the generated code; an empty one is left out. -/
  header : Option String := none
  deriving DecidableEq, Repr

/-- Why settings cannot be used. -/
inductive SettingsFault where
  /-- The text is no TOML, or not of the expected shape. -/
  | malformed
  | unknownSdk (name : String)
  | emptyLanguage
  /-- The rule at a position cannot be used. -/
  | rule (index : Nat) (failure : Failure)
  deriving DecidableEq, Repr

/-- What is said about settings that cannot be used. -/
def SettingsFault.message : SettingsFault → String
  | .malformed => "TOML parse error"
  | .unknownSdk name => Sdk.unknownMessage name
  | .emptyLanguage => "producer.language cannot be empty"
  | .rule index failure =>
      "modules.rules[" ++ toString index ++ "] is invalid: " ++ failure.message

/-! ## §2. Shapes. -/

namespace Toml

open Text.Toml

/-- The fields of a record: a table without other keys, or the values of the
first fields in order. -/
structure RecordFields where
  isOrdered : Bool
  entries : Entries

/-- Read a value as a record with the fields `names`. -/
def record? (names : List String) : Text.Toml → Option RecordFields
  | .table _ entries =>
      if entries.all fun (key, _) => decide (key ∈ names) then some ⟨false, entries⟩ else none
  | .array items => some ⟨true, names.zip items⟩
  | _ => none

/-- A text. -/
def text? : Text.Toml → Option String
  | .text s => some s
  | _ => none

/-- A list of texts. -/
def texts? : Text.Toml → Option (List String)
  | .array items => items.mapM text?
  | _ => none

namespace RecordFields

/-- A field with a value for when it is absent. -/
def defaulted? {α : Type} (r : RecordFields) (name : String) (absent : α)
    (read : Text.Toml → Option α) : Option α :=
  match r.entries.lookup name with
  | some value => read value
  | none => some absent

/-- A field that has to be there. -/
def required? {α : Type} (r : RecordFields) (name : String) (read : Text.Toml → Option α) :
    Option α :=
  (r.entries.lookup name).bind read

/-- A field that a table may lack, and a list of values may not. -/
def optional? {α : Type} (r : RecordFields) (name : String) (read : Text.Toml → Option α) :
    Option (Option α) :=
  match r.entries.lookup name with
  | some value => (read value).map some
  | none => if r.isOrdered then none else some none

end RecordFields

/-- The settings of the producer. -/
def producer? (value : Text.Toml) : Option Producer := do
  let r ← record? ["path", "sdk", "language", "flags"] value
  let absent : Producer := {}
  return { path := ← r.defaulted? "path" absent.path text?
           sdk := ← r.defaulted? "sdk" absent.sdk text?
           language := ← r.defaulted? "language" absent.language text?
           flags := ← r.defaulted? "flags" absent.flags texts? }

/-- A module rule. -/
def rule? (value : Text.Toml) : Option RuleText := do
  let r ← record? ["pattern", "module"] value
  return ⟨← r.required? "pattern" text?, ← r.optional? "module" text?⟩

/-- A list of module rules. -/
def rules? : Text.Toml → Option (List RuleText)
  | .array items => items.mapM rule?
  | .tables items => items.mapM fun entries => rule? (.table .header entries)
  | _ => none

/-- The settings of modules. -/
def modules? (value : Text.Toml) : Option (List RuleText) := do
  let r ← record? ["rules"] value
  r.defaulted? "rules" [] rules?

/-- The settings of the generated code. -/
def output? (value : Text.Toml) : Option (Option String) := do
  let r ← record? ["header"] value
  r.optional? "header" text?

/-- All settings. -/
def settings? (entries : Entries) : Option Settings := do
  let r ← record? ["producer", "modules", "output"] (.table .header entries)
  return { producer := ← r.defaulted? "producer" {} producer?
           rules := ← r.defaulted? "modules" [] modules?
           header := ← r.defaulted? "output" none output? }

end Toml

/-! ## §3. Use. -/

/-- The rules from a position on. -/
def readRules (index : Nat) : List RuleText → Except SettingsFault (List ModuleRule)
  | [] => .ok []
  | r :: rs =>
      match ModuleRule.ofText r.pattern r.module with
      | .error e => .error (.rule index e)
      | .ok rule => (readRules (index + 1) rs).map (rule :: ·)

namespace Settings

/-- The rules of the settings. -/
def moduleRules (s : Settings) : Except SettingsFault (List ModuleRule) :=
  readRules 0 s.rules

/-- Settings whose SDK is known, whose language is not blank and whose rules
can be used. -/
def checked (s : Settings) : Except SettingsFault Settings :=
  match Sdk.ofName s.producer.sdk with
  | .error name => .error (.unknownSdk name)
  | .ok _ =>
      if (trim s.producer.language).isEmpty then .error .emptyLanguage
      else s.moduleRules.map fun _ => s

/-- The settings of a text. -/
def ofText (text : String) : Except SettingsFault Settings :=
  match (Text.Toml.read? text).bind Toml.settings? with
  | none => .error .malformed
  | some s => s.checked

/-- The comment above the generated code: that of the settings unless it is
empty, and the default one if they say nothing. -/
def banner (s : Settings) : Option String :=
  match s.header with
  | none => some defaultHeader
  | some header => if header.isEmpty then none else some header

end Settings

end ObjcBindings
