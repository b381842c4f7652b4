/-
  ObjcBindings.Bindings.Plan
  ────────────────────────────────
  **WHAT EVERY MODULE CONTAINS.**

  The definitions of a unit are placed into modules in three passes:

      definitions   — interfaces, protocols and the C declarations in use
      stubs         — structs in use that are only announced
      categories    — each merged into its class, or into one container for
                      its class in its own module

  Then every container learns its supertraits, and every class implements each
  trait above it exactly once across all modules.
-/
import ObjcBindings.Bindings.Container
import ObjcBindings.Bindings.Supertraits

namespace ObjcBindings

open Text (NameSet)

/-! ## §1. Plans. -/

/-- A struct; one whose layout cannot be written is declared without it. -/
structure StructPlan where
  decl : Decl
  isRepresentable : Bool

/-- What one module contains. -/
structure ModulePlan where
  name : String
  structs : List StructPlan := []
  /-- Typedefs and enums in the order of their declarations. -/
  aliases : List Decl := []
  interfaces : List Container := []
  protocols : List Container := []
  /-- In the order of the last category merged into each. -/
  categories : List Container := []

namespace ModulePlan

/-- All containers of the module. -/
def containers (p : ModulePlan) : List Container :=
  p.interfaces ++ p.protocols ++ p.categories

/-- The number of methods bound in the module. -/
def methodCount (p : ModulePlan) : Nat :=
  (p.containers.flatMap Container.methods).length

end ModulePlan

/-- The modules of the bindings, by name. -/
structure Plan where
  modules : List ModulePlan

namespace Plan

/-- The module of a name. -/
def module? (p : Plan) (name : String) : Option ModulePlan :=
  p.modules.find? (·.name == name)

/-- The core module first, the others by name. -/
def listing (p : Plan) : List ModulePlan :=
  p.modules.filter (·.name == coreModule) ++ p.modules.filter (·.name != coreModule)

end Plan

/-! ## §2. Placing definitions. -/

/-- Something that a module contains. -/
inductive PlanItem where
  | interface (c : Container)
  | protocol (c : Container)
  | struct (s : StructPlan)
  | alias (d : Decl)

/-- An item and its module. -/
structure Placed where
  module : String
  item : PlanItem

/-- A category's container and its module. -/
structure PlacedCategory where
  module : String
  container : Container

namespace Scope

/-- The definition of an interface's superclass. -/
def superclassOf (s : Scope) : Option Usr → Except Failure (Option Decl)
  | some usr => s.superclass usr
  | none => .ok none

/-- Place one definition. -/
def place (s : Scope) (d : Decl) (m : Memory) : Except Failure (Option Placed × Memory) :=
  match d.kind with
  | .interface _ _ superclass _ => do
      let module ← s.moduleOf d
      let above ← s.superclassOf superclass
      let (c, m) ← s.container .interface d d module above m
      return (some ⟨module, .interface c⟩, m)
  | .protocol _ _ => do
      let module ← s.moduleOf d
      let (c, m) ← s.container .protocol d d module none m
      return (some ⟨module, .protocol c⟩, m)
  | .typedef type =>
      if d.usr ∉ s.used.typedefs || (Idiom.detect? d.name type).isSome || s.isMerged d.usr then
        .ok (none, m)
      else do
        let (answer, m) ← Verdict.orFail (s.typedefFits d.usr m)
        if answer then
          let module ← s.moduleOf d
          return (some ⟨module, .alias d⟩, m)
        else return (none, m)
  | .record _ _ =>
      if d.usr ∉ s.used.structs then .ok (none, m)
      else do
        let (answer, m) ← Verdict.orFail (s.recordFits d.usr m)
        let module ← s.moduleOf d
        return (some ⟨module, .struct ⟨d, answer⟩⟩, m)
  | .enum _ _ _ =>
      if d.usr ∉ s.used.enums then .ok (none, m)
      else do
        let (answer, m) ← Verdict.orFail (s.typeFits (.enum d.usr) m)
        if answer then
          let module ← s.moduleOf d
          return (some ⟨module, .alias d⟩, m)
        else return (none, m)
  | _ => .ok (none, m)

/-- Place definitions in order. -/
def placeAll (s : Scope) : List Decl → Memory → Except Failure (List Placed × Memory)
  | [], m => .ok ([], m)
  | d :: ds, m =>
      match s.place d m with
      | .error e => .error e
      | .ok (placed, m) =>
          match s.placeAll ds m with
          | .error e => .error e
          | .ok (rest, m) => .ok (placed.toList ++ rest, m)

/-- Place the structs that are only announced. -/
def placeStubs (s : Scope) : List Usr → Except Failure (List Placed)
  | [] => .ok []
  | usr :: usrs =>
      if s.table.isDefined usr then s.placeStubs usrs
      else do
        let d ← s.table.find usr
        let module ← s.moduleOf d
        return ⟨module, .struct ⟨d, false⟩⟩ :: (← s.placeStubs usrs)

/-! ## §3. Placing categories. -/

/-- Place a category, unless the class it extends is not defined. -/
def placeCategory (s : Scope) (d : Decl) (className : String) (m : Memory) :
    Except Failure (Option PlacedCategory × Memory) := do
  let named ← s.table.interfaceNamed className
  match s.definedInterface? named.usr with
  | none => return (none, m)
  | some cls =>
      let module ← s.moduleOf d
      let owner ← s.moduleOf cls
      let (c, m) ← s.container .category d cls owner none m
      return (some ⟨module, c⟩, m)

/-- Place categories in order. -/
def placeCategories (s : Scope) :
    List Decl → Memory → Except Failure (List PlacedCategory × Memory)
  | [], m => .ok ([], m)
  | d :: ds, m =>
      match d.kind with
      | .category className _ _ =>
          match s.placeCategory d className m with
          | .error e => .error e
          | .ok (placed, m) =>
              match s.placeCategories ds m with
              | .error e => .error e
              | .ok (rest, m) => .ok (placed.toList ++ rest, m)
      | _ => s.placeCategories ds m

end Scope

/-- The category belongs to the module of its class. -/
def PlacedCategory.isAtHome (p : PlacedCategory) : Bool :=
  p.module == p.container.ownerModule

/-- Merge a category into the container of its class, which moves to the end;
a class without one gets the category's. -/
def mergeCategory (cs : List Container) (c : Container) : List Container :=
  match cs.find? (·.decl.usr == c.decl.usr) with
  | some old => cs.filter (·.decl.usr != c.decl.usr) ++ [old.absorb c]
  | none => cs ++ [c]

/-! ## §4. Modules. -/

/-- The interface with the categories of its own module. -/
def withCategories (categories : List PlacedCategory) (c : Container) : Container :=
  (categories.filter fun p => p.isAtHome && p.container.decl.usr == c.decl.usr).foldl
    (fun c p => c.absorb p.container) c

/-- The module `name` before supertraits are known. -/
def draftModule (placed : List Placed) (categories : List PlacedCategory) (name : String) :
    ModulePlan :=
  let here := (placed.filter (·.module == name)).map Placed.item
  let categoriesHere := categories.filter (·.module == name)
  { name
    structs := here.filterMap fun
      | .struct s => some s
      | _ => none
    aliases := here.filterMap fun
      | .alias d => some d
      | _ => none
    interfaces := here.filterMap fun
      | .interface c => some (withCategories categoriesHere c)
      | _ => none
    protocols := here.filterMap fun
      | .protocol c => some c
      | _ => none
    categories := (categoriesHere.filter (!·.isAtHome)).foldl
      (fun cs p => mergeCategory cs p.container) [] }

/-- The modules before supertraits are known, by name. -/
def draftModules (placed : List Placed) (categories : List PlacedCategory) :
    List ModulePlan :=
  let names := NameSet.ofList
    (coreModule :: placed.map Placed.module ++ categories.map PlacedCategory.module)
  names.map (draftModule placed categories)

/-! ## §5. Supertraits. -/

/-- An interface or protocol of a module with what is above it. -/
def Container.node (c : Container) (module : String) : SupertraitNode :=
  { usr := c.decl.usr, kind := c.kind, module, name := c.decl.name,
    superclass := c.superclass.map Decl.usr, protocols := c.protocols.map Decl.usr }

/-- The interfaces and protocols of all modules. -/
def Supertraits.ofModules (modules : List ModulePlan) : Supertraits :=
  modules.flatMap fun p => (p.interfaces ++ p.protocols).map (·.node p.name)

namespace Supertraits

/-- The safe traits directly above an interface or protocol. -/
def bases (nodes : Supertraits) (c : Container) : List TraitRef :=
  (c.superclass.toList ++ c.protocols).filterMap fun d => nodes.safeTrait? d.usr

/-- An interface that implements every trait above it. -/
def finishInterface (nodes : Supertraits) (c : Container) : Container :=
  { c with bases := nodes.bases c, impls := nodes.closure [c.decl.usr] [] }

/-- A protocol with its supertraits. -/
def finishProtocol (nodes : Supertraits) (c : Container) : Container :=
  { c with bases := nodes.bases c }

/-- Interfaces and protocols with their supertraits. -/
def finishOwn (nodes : Supertraits) (p : ModulePlan) : ModulePlan :=
  { p with
    interfaces := p.interfaces.map nodes.finishInterface
    protocols := p.protocols.map nodes.finishProtocol }

end Supertraits

/-- The traits that classes implement so far. -/
abbrev Implemented := List (Usr × TraitRef)

/-- The candidates that the class does not implement yet, and what is
implemented with them. -/
def claimTraits (usr : Usr) : List TraitRef → Implemented → List TraitRef × Implemented
  | [], done => ([], done)
  | t :: ts, done =>
      if (usr, t) ∈ done then claimTraits usr ts done
      else
        let (rest, done) := claimTraits usr ts ((usr, t) :: done)
        (t :: rest, done)

namespace Supertraits

/-- The traits that a category could make its class implement. -/
def categoryTraits (nodes : Supertraits) (module : String) (c : Container) : List TraitRef :=
  nodes.closure (c.protocols.map Decl.usr)
    [.raw module c.decl.name .category, .safe module c.decl.name .category]

/-- A category with its supertraits, which makes its class implement what it
does not implement yet. -/
def finishCategory (nodes : Supertraits) (module : String) (c : Container)
    (done : Implemented) : Container × Implemented :=
  let (impls, done) := claimTraits c.decl.usr (nodes.categoryTraits module c) done
  ({ c with
      bases := .safe c.ownerModule c.decl.name .interface
        :: c.protocols.filterMap fun d => nodes.safeTrait? d.usr
      impls }, done)

/-- The categories of a module in order. -/
def finishCategories (nodes : Supertraits) (module : String) :
    List Container → Implemented → List Container × Implemented
  | [], done => ([], done)
  | c :: cs, done =>
      let (c, done) := nodes.finishCategory module c done
      let (rest, done) := nodes.finishCategories module cs done
      (c :: rest, done)

/-- The categories of all modules in order. -/
def finishModules (nodes : Supertraits) : List ModulePlan → Implemented → List ModulePlan
  | [], _ => []
  | p :: ps, done =>
      let (categories, done) := nodes.finishCategories p.name p.categories done
      { p with categories } :: nodes.finishModules ps done

end Supertraits

/-- Modules with all supertraits: first those of interfaces and protocols,
then those that categories add. -/
def finishModules (modules : List ModulePlan) : List ModulePlan :=
  let nodes := Supertraits.ofModules modules
  let own := modules.map nodes.finishOwn
  let done : Implemented := own.flatMap fun p =>
    p.interfaces.flatMap fun c => c.impls.map fun t => (c.decl.usr, t)
  nodes.finishModules own done

/-- Plan the bindings of a scope. -/
def Scope.plan (s : Scope) : Except Failure Plan := do
  let (placed, m) ← s.placeAll s.table.definitions []
  let stubs ← s.placeStubs s.used.structs
  let (categories, _) ← s.placeCategories s.table.definitions m
  return ⟨finishModules (draftModules (placed ++ stubs) categories)⟩

end ObjcBindings
