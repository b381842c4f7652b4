/-
  ObjcBindings.Bindings.Container
  ────────────────────────────────
  **WHAT A PAIR OF TRAITS IS WRITTEN FROM.**

  A container carries the methods that can be bound and the protocols that are
  defined.  A category becomes a container for the class it extends.
-/
import ObjcBindings.Bindings.TraitRef
import ObjcBindings.Interop.Fitness

namespace ObjcBindings

/-! ## §1. Containers. -/

/-- One interface or protocol, or the merged categories of one class. -/
structure Container where
  kind : ContainerKind
  /-- The interface or protocol; for categories, the class they extend. -/
  decl : Decl
  /-- The module of `decl`; only for categories not the module of the
  container. -/
  ownerModule : String
  superclass : Option Decl
  methods : List Method
  protocols : List Decl
  /-- The supertraits of the safe trait after its own raw trait. -/
  bases : List TraitRef := []
  /-- The traits that the class implements in the container's module. -/
  impls : List TraitRef := []

/-- Add a protocol unless its USR is already there. -/
def addProtocol (protocols : List Decl) (p : Decl) : List Decl :=
  if protocols.any (·.usr == p.usr) then protocols else protocols ++ [p]

namespace Container

/-- The name of the safe trait. -/
def traitName (c : Container) : String := c.decl.name ++ c.kind.suffix

/-- The name of the raw trait. -/
def rawTraitName (c : Container) : String := c.traitName ++ "Raw"

/-- Take in the methods and protocols of another container. -/
def absorb (c other : Container) : Container :=
  { c with
    methods := c.methods ++ other.methods
    protocols := other.protocols.foldl addProtocol c.protocols }

end Container

/-! ## §2. Building containers. -/

/-- A verdict whose failure ends the run. -/
def Verdict.orFail : Verdict → Except Failure (Bool × Memory)
  | (.ok answer, m) => .ok (answer, m)
  | (.error e, _) => .error e

namespace Scope

/-- The methods that can be bound. -/
def boundMethods (s : Scope) : List Method → Memory → Except Failure (List Method × Memory)
  | [], m => .ok ([], m)
  | method :: methods, m =>
      match s.methodFits method m with
      | (.error e, _) => .error e
      | (.ok answer, m) =>
          match s.boundMethods methods m with
          | .error e => .error e
          | .ok (kept, m) => .ok (if answer then method :: kept else kept, m)

/-- The defined protocols among those of the names, added to `found`. -/
def definedProtocols (s : Scope) (found : List Decl) :
    List String → Except Failure (List Decl)
  | [] => .ok found
  | name :: names =>
      match s.table.protocolNamed name with
      | .error e => .error e
      | .ok p =>
          match s.table.definition? p.usr with
          | some d => s.definedProtocols (addProtocol found d) names
          | none => s.definedProtocols found names

/-- A container with the methods and protocols of `source`, bound to
`target`. -/
def container (s : Scope) (kind : ContainerKind) (source target : Decl) (ownerModule : String)
    (superclass : Option Decl) (m : Memory) : Except Failure (Container × Memory) :=
  match s.boundMethods source.methods m with
  | .error e => .error e
  | .ok (methods, m) =>
      match s.definedProtocols [] source.protocols with
      | .error e => .error e
      | .ok protocols =>
          .ok ({ kind, decl := target, ownerModule, superclass, methods, protocols }, m)

end Scope

end ObjcBindings
