/-
  ObjcBindings.Bindings.Source
  ────────────────────────────────
  **THE GENERATED CODE.**

  Every module of a plan becomes one Rust module.  The whole source is a
  comment and the modules after each other.

      bindings     — from a unit to the code of its modules
      fullSource   — the code as one text
-/
import ObjcBindings.Bindings.Item
import ObjcBindings.Bindings.Plan
import ObjcBindings.Bindings.Prelude
import ObjcBindings.Bindings.Trait

namespace ObjcBindings

open Text

/-! ## §1. Sources. -/

/-- The code of one module. -/
structure ModuleSource where
  name : String
  code : String
  deriving DecidableEq, Repr

/-- The code of all modules. -/
structure Source where
  /-- The comment above the modules. -/
  header : Option String
  modules : List ModuleSource
  deriving DecidableEq, Repr

/-- The comment unless another one is asked for. -/
def defaultHeader : String := "Generated by objc-bindgen. Do not edit."

namespace Source

/-- A line of the comment. -/
def commentLine (line : String) : String :=
  if line.isEmpty then "//\n" else "// " ++ line ++ "\n"

/-- The comment with an empty line after it. -/
def headerText (header : String) : String :=
  String.join ((lines header).map commentLine) ++ "\n"

/-- The whole code as one text. -/
def fullSource (s : Source) : String :=
  (s.header.map headerText).getD "" ++ "\n".intercalate (s.modules.map ModuleSource.code)

/-- The module of a name. -/
def module? (s : Source) (name : String) : Option ModuleSource :=
  s.modules.find? (·.name == name)

end Source

/-! ## §2. Modules. -/

/-- The selectors of a module's methods and their names. -/
def ModulePlan.selectors (p : ModulePlan) : SelectorTable :=
  selectorTable (p.containers.flatMap fun c => c.methods.map Method.selector)

namespace Scope

/-- The parts of a module's code, in order. -/
def moduleItems (s : Scope) (p : ModulePlan) : Except Failure (List String) := do
  let selectors := p.selectors
  let structs ← collect (s.structItem p.name) p.structs
  let aliases ← collect (s.aliasItem p.name) p.aliases
  let containers ← collect (s.containerItem p.name selectors) p.containers
  return (if p.name = coreModule then [coreItems] else [])
    ++ (if selectors.isEmpty then [] else [selectorItems selectors])
    ++ (if p.interfaces.isEmpty then [] else [classItems p.name p.interfaces])
    ++ structs ++ aliases ++ containers

/-- The code of a module. -/
def moduleCode (s : Scope) (p : ModulePlan) : Except Failure String := do
  let items ← s.moduleItems p
  let head := moduleLints ++ "\n\n"
    ++ (if p.name = coreModule then "" else coreImports ++ "\n\n")
  return block ("pub mod " ++ p.name) (head ++ paragraphs items) ++ "\n"

/-- The code of the modules of a plan. -/
def modulesOf (s : Scope) (plan : Plan) : Except Failure (List ModuleSource) :=
  collect (fun p => (s.moduleCode p).map (⟨p.name, ·⟩)) plan.listing

end Scope

/-- The bindings of a unit, with `header` as the comment above them. -/
def TranslationUnit.bindings (unit : TranslationUnit) (rules : List ModuleRule)
    (header : Option String) : Except Failure Source := do
  let s ← Scope.ofUnit unit rules
  let plan ← s.plan
  return ⟨header, ← s.modulesOf plan⟩

end ObjcBindings
