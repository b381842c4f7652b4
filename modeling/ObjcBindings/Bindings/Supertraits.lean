/-
  ObjcBindings.Bindings.Supertraits
  ────────────────────────────────
  **THE SUPERTRAITS OF A CONTAINER.**

  The safe trait of an interface or protocol has as supertraits its raw trait
  and the safe traits of its superclass and protocols.  `closure` lists all
  traits above a container, each once, superclasses before protocols; cycles
  do no harm, because a container whose safe trait is listed is not entered
  again.
-/
import ObjcBindings.Bindings.TraitRef

namespace ObjcBindings

/-- An interface or protocol and what is directly above it. -/
structure SupertraitNode where
  usr : Usr
  kind : ContainerKind
  module : String
  name : String
  superclass : Option Usr
  protocols : List Usr
  deriving DecidableEq, Repr

namespace SupertraitNode

/-- The safe trait of the container. -/
def safe (n : SupertraitNode) : TraitRef := .safe n.module n.name n.kind

/-- The raw trait of the container. -/
def raw (n : SupertraitNode) : TraitRef := .raw n.module n.name n.kind

/-- The containers directly above, the superclass first. -/
def above (n : SupertraitNode) : List Usr :=
  n.superclass.toList ++ n.protocols

end SupertraitNode

/-- Interfaces and protocols, each with what is directly above it. -/
abbrev Supertraits := List SupertraitNode

namespace Supertraits

/-- The container of a USR. -/
def node? (nodes : Supertraits) (usr : Usr) : Option SupertraitNode :=
  nodes.find? (·.usr == usr)

/-- The safe trait of a USR's container. -/
def safeTrait? (nodes : Supertraits) (usr : Usr) : Option TraitRef :=
  (nodes.node? usr).map SupertraitNode.safe

/-- How many containers are not listed yet. -/
def unlisted (nodes : Supertraits) (listed : List TraitRef) : Nat :=
  nodes.countP (fun n => decide (n.safe ∉ listed))

theorem unlisted_append_lt {nodes : Supertraits} {usr : Usr} {n : SupertraitNode}
    {listed : List TraitRef} (h : nodes.node? usr = some n) (hn : n.safe ∉ listed) :
    nodes.unlisted (listed ++ [n.raw, n.safe]) < nodes.unlisted listed := by
  apply Text.countP_lt_of_imp _ (List.mem_of_find?_eq_some h)
  · simpa using hn
  · simp
  · intro a _ ha
    simp only [List.mem_append, decide_eq_true_eq] at ha ⊢
    exact fun hm => ha (.inl hm)

/-- Add the traits of the containers still to be entered, and of all above
them, to those that are listed. -/
def closure (nodes : Supertraits) (todo : List Usr) (listed : List TraitRef) :
    List TraitRef :=
  match todo with
  | [] => listed
  | usr :: rest =>
      match _h : nodes.node? usr with
      | none => closure nodes rest listed
      | some n =>
          if _hn : n.safe ∈ listed then closure nodes rest listed
          else closure nodes (n.above ++ rest) (listed ++ [n.raw, n.safe])
termination_by (nodes.unlisted listed, todo.length)
decreasing_by
  · exact Prod.Lex.right _ (by simp)
  · exact Prod.Lex.right _ (by simp)
  · exact Prod.Lex.left _ _ (unlisted_append_lt _h _hn)

end Supertraits

end ObjcBindings
