/-
  ObjcBindings.Header.Rule
  ────────────────────────────────
  **FROM HEADER PATHS TO MODULES.**

  A rule is a pattern over header paths and the module that its matches lead
  to: a fixed one, the core module, or the one named by the pattern's first
  group.  A match in which that group took no part says nothing.
-/
import ObjcBindings.Failure
import ObjcBindings.Text.Ident
import ObjcBindings.Text.Pattern.Reader

namespace ObjcBindings

open Text

/-- The module of runtime fundamentals, implicit declarations and system
headers. -/
def coreModule : String := "core"

/-- Where the matches of a rule lead. -/
inductive RuleTarget where
  /-- The module named by the first group. -/
  | capture
  | core
  | fixed (name : String)
  deriving DecidableEq, Repr

/-- A rule over header paths. -/
structure ModuleRule where
  pattern : Pattern
  target : RuleTarget

namespace ModuleRule

/-- A rule from its text.  Without a module, the pattern has to have a
group. -/
def ofText (pattern : String) (module : Option String) : Except Failure ModuleRule :=
  match Regex.read? pattern with
  | none => .error (.invalidRule pattern .pattern)
  | some regex =>
      match module with
      | some name =>
          .ok ⟨regex.pattern, if asciiLower name = coreModule then .core else .fixed name⟩
      | none =>
          if regex.groups = 0 then .error (.invalidRule pattern .noTarget)
          else .ok ⟨regex.pattern, .capture⟩

/-- The module that the rule gives a path, before it is made an identifier. -/
def moduleFor? (rule : ModuleRule) (path : String) : Option String :=
  match rule.pattern.search? path with
  | none => none
  | some groups =>
      match rule.target with
      | .core => some coreModule
      | .fixed name => some name
      | .capture => (groups.lookup 1).map String.ofList

end ModuleRule

end ObjcBindings
