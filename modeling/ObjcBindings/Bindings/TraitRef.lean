/-
  ObjcBindings.Bindings.TraitRef
  ────────────────────────────────
  **THE TRAITS OF CONTAINERS.**

  Every interface, protocol and category becomes a pair of traits: the safe
  one that users call and the raw one that sends messages.  Their names are
  the container's name with a suffix for its kind.
-/
import ObjcBindings.Interop.Scope

namespace ObjcBindings

/-- What a pair of traits is written for. -/
inductive ContainerKind where
  | interface
  | protocol
  | category
  deriving DecidableEq, Repr

/-- The end of a trait's name. -/
def ContainerKind.suffix : ContainerKind → String
  | .interface => "Interface"
  | .protocol => "Protocol"
  | .category => "Category"

/-- A trait and the module it is declared in. -/
structure TraitRef where
  module : String
  name : String
  deriving DecidableEq, Repr

namespace TraitRef

/-- The safe trait of a container. -/
def safe (module name : String) (kind : ContainerKind) : TraitRef :=
  ⟨module, name ++ kind.suffix⟩

/-- The raw trait of a container. -/
def raw (module name : String) (kind : ContainerKind) : TraitRef :=
  ⟨module, name ++ kind.suffix ++ "Raw"⟩

/-- The trait as it is written in module `current`. -/
def pathFrom (t : TraitRef) (current : String) : String :=
  qualifyIn t.module t.name current

end TraitRef

end ObjcBindings
