/-
  ObjcBindings.Bindings.Item
  ────────────────────────────────
  **TABLES, STRUCTS AND TYPE ALIASES.**

      selectorItems — the module of selectors
      classItems    — the module of classes
      structItem    — a struct with its layout, or without it
      aliasItem     — a typedef, or an enum with its constants
-/
import ObjcBindings.Bindings.Code
import ObjcBindings.Bindings.Name
import ObjcBindings.Bindings.Plan
import ObjcBindings.Interop.Spelling

namespace ObjcBindings

open Text

/-! ## §1. Tables. -/

/-- A module of lazily built values. -/
def lazyModule (name : String) (entries : List String) : String :=
  enclosed ("pub mod " ++ name)
    ("    lazy_static::lazy_static! \x7b\n"
      ++ joinLines (entries.map ("        pub static ref " ++ ·)) ++ "\n    \x7d")

/-- The module of selectors. -/
def selectorItems (selectors : SelectorTable) : String :=
  lazyModule "selectors" (selectors.map fun (selector, ident) =>
    ident ++ ": objc::runtime::Sel = objc::runtime::Sel::register(\"" ++ selector ++ "\");")

/-- How the module of classes inside `module` refers to the look-up of
classes. -/
def classLookup (module : String) : String :=
  if module = coreModule then "super::class_named" else "super::super::core::class_named"

/-- The module of classes. -/
def classItems (module : String) (interfaces : List Container) : String :=
  lazyModule "classes" (interfaces.map fun c =>
    Ident.escape c.decl.name ++ ": &'static objc::runtime::Class = " ++ classLookup module
      ++ "(\"" ++ c.decl.name ++ "\");")

/-! ## §2. Structs. -/

/-- A struct that is only used behind pointers. -/
def opaqueStruct (name : String) : String :=
  joinLines ["#[repr(C)]", enclosed ("pub struct " ++ name) "    _private: [u8; 0],"]

/-- The name of the field at position `i`. -/
def fieldName (i : Nat) (name : String) : String :=
  if name.isEmpty then "_field" ++ toString i else Ident.escape name

namespace Scope

/-- The fields of a struct from position `i` on; members that are no fields are
left out. -/
def fieldLines (s : Scope) (current : String) :
    Nat → List Decl → Except Failure (List String)
  | _, [] => .ok []
  | i, f :: fs =>
      match f.kind with
      | .field type _ => do
          let rust ← s.raw current type
          return ("    pub " ++ fieldName i f.name ++ ": " ++ rust ++ ",")
            :: (← s.fieldLines current (i + 1) fs)
      | _ => s.fieldLines current (i + 1) fs

/-- A struct as it is declared in module `current`. -/
def structItem (s : Scope) (current : String) (plan : StructPlan) : Except Failure String :=
  let name := s.tagName plan.decl
  match plan.decl.kind, plan.isRepresentable with
  | .record fields _, true => do
      let lines ← s.fieldLines current 0 fields
      return joinLines ["#[repr(C)]", "#[derive(Debug, Copy, Clone)]",
        enclosed ("pub struct " ++ name) (joinLines lines)]
  | _, _ => .ok (opaqueStruct name)

/-! ## §3. Aliases. -/

/-- The integer type of an enum; one that does not say is a C `int`. -/
def enumInteger (s : Scope) (current : String) : Option TypeExpr → Except Failure String
  | some type => s.raw current type
  | none => .ok "libc::c_int"

end Scope

/-- The constant of an enumerator with a known value. -/
def constantLine? (enumName : String) (d : Decl) : Option String :=
  match d.kind with
  | .enumConstant (some value) =>
      some ("pub const " ++ Ident.escape d.name ++ ": " ++ enumName ++ " = " ++ value ++ ";")
  | _ => none

/-- A type alias. -/
def aliasLine (name target : String) : String :=
  "pub type " ++ name ++ " = " ++ target ++ ";"

namespace Scope

/-- What a typedef stands for: the safe spelling of an object, where the
receiver's type is any object, and otherwise the raw spelling. -/
def aliasTarget (s : Scope) (current : String) (type : TypeExpr) : Except Failure String := do
  if ← s.isObjectLike [] type then
    let safe ← s.safe current type
    return if safe.isSelf then objectPointer else safe.rust
  else s.raw current type

/-- A typedef or enum as it is declared in module `current`. -/
def aliasItem (s : Scope) (current : String) (d : Decl) : Except Failure String :=
  match d.kind with
  | .enum integerType _ enumerators => do
      let name := s.tagName d
      let integer ← s.enumInteger current integerType
      return joinLines (aliasLine name integer :: enumerators.filterMap (constantLine? name))
  | .typedef type => do
      return aliasLine (Ident.escape d.name) (← s.aliasTarget current type)
  | _ => .ok ""

end Scope

end ObjcBindings
