/-
  ObjcBindings.Interop.Idiom
  ────────────────────────────────
  **TYPEDEFS OF THE LANGUAGE ITSELF.**

  `BOOL`, `id`, `instancetype`, `SEL` and `Class` are typedefs in the runtime's
  headers.  One is recognised by its name and the shape of its type together,
  so a typedef that merely uses one of the names is left alone.  Shapes look
  through wrappers at every level.
-/
import ObjcBindings.Schema.TypeExpr

namespace ObjcBindings

/-! ## §1. Shapes. -/

namespace TypeExpr

/-- The builtin `name`, below wrappers. -/
def isBuiltin (name : String) (t : TypeExpr) : Bool :=
  match t.stripWrappers with
  | .builtin n => n == name
  | _ => false

/-- An object type whose base is the builtin `name`. -/
def isObjectOf (name : String) (t : TypeExpr) : Bool :=
  match t.stripWrappers with
  | .object (some base) _ _ _ => base.isBuiltin name
  | _ => false

/-- A pointer to an object type whose base is the builtin `name`. -/
def isObjectPointerOf (name : String) (t : TypeExpr) : Bool :=
  match t.stripWrappers with
  | .objectPointer pointee => pointee.isObjectOf name
  | _ => false

/-- The type of `id` and `instancetype`. -/
def isIdShape (t : TypeExpr) : Bool := t.isObjectPointerOf "ObjCId"

/-- The type of `Class`. -/
def isClassShape (t : TypeExpr) : Bool := t.isObjectPointerOf "ObjCClass"

/-- The type of `SEL`. -/
def isSelShape (t : TypeExpr) : Bool :=
  match t.stripWrappers with
  | .pointer pointee => pointee.isBuiltin "ObjCSel"
  | _ => false

/-- The type of `BOOL`. -/
def isBoolShape (t : TypeExpr) : Bool := t.isBuiltin "SChar" || t.isBuiltin "Bool"

end TypeExpr

/-! ## §2. Idioms. -/

/-- A typedef of the language itself. -/
inductive Idiom where
  | bool
  | instanceType
  | id
  | sel
  | classRef
  deriving DecidableEq, Repr

/-- The idiom that a typedef of this name and type is, if it is one. -/
def Idiom.detect? (name : String) (type : TypeExpr) : Option Idiom :=
  if name = "BOOL" then if type.isBoolShape then some .bool else none
  else if name = "instancetype" then if type.isIdShape then some .instanceType else none
  else if name = "id" then if type.isIdShape then some .id else none
  else if name = "SEL" then if type.isSelShape then some .sel else none
  else if name = "Class" then if type.isClassShape then some .classRef else none
  else none

end ObjcBindings
