/-
  ObjcBindings.Interop.Spelling
  ────────────────────────────────
  **HOW A TYPE IS WRITTEN IN RUST.**

  Every type that can cross a message send has two spellings:

      raw    — the type that is passed on the wire
      safe   — the type of the public trait, with the conversion between both

  Objects travel as untyped object pointers, truth values as the runtime's
  `BOOL`; for all other types both spellings agree.  A spelling is first built
  with the declarations that it names, and then written as it is seen from one
  module.  A typedef is followed at most once on the way to a spelling: one
  that leads back to itself is circular.
-/
import ObjcBindings.Interop.Primitive
import ObjcBindings.Interop.Scope

namespace ObjcBindings

open Text

/-! ## §1. Fixed spellings. -/

/-- An object whose class is not known. -/
def objectPointer : String := "ObjCObjectPointer"

/-- A class. -/
def classPointer : String := "ObjCClassPointer"

/-- A selector. -/
def selectorType : String := "objc::runtime::Sel"

/-- A truth value on the wire. -/
def rawBool : String := "objc::runtime::BOOL"

/-- What the safe layer does to a value on its way to or from the wire. -/
inductive Conversion where
  | identity
  /-- `bool` in the safe layer, `BOOL` on the wire. -/
  | bool
  /-- A wrapper in the safe layer, an object pointer on the wire. -/
  | object
  deriving DecidableEq, Repr

/-- The safe spelling of a type. -/
structure SafeType where
  rust : String
  conversion : Conversion
  deriving DecidableEq, Repr

namespace SafeType

/-- The type of the receiver. -/
def isSelf (t : SafeType) : Bool := t.rust == "Self"

/-- The expression that turns the safe value `value` into its raw form. -/
def toRaw (t : SafeType) (value : String) : String :=
  match t.conversion with
  | .identity => value
  | .bool => value ++ " as " ++ rawBool
  | .object => "ObjCObject::ptr(&" ++ value ++ ")"

/-- The expression that turns the raw expression `raw` into this type. -/
def fromRaw (t : SafeType) (raw : String) : String :=
  match t.conversion with
  | .identity => raw
  | .bool => raw ++ " != objc::runtime::NO"
  | .object => "<" ++ t.rust ++ " as ObjCObject>::from_ptr(" ++ raw ++ ")"

end SafeType

/-- A Rust type with the declarations that it names. -/
inductive RustType where
  /-- A type that is written alike everywhere. -/
  | fixed (text : String)
  /-- The declaration `decl`, under the name `ident`. -/
  | named (ident : String) (decl : Decl)
  | pointer (target : RustType)
  | array (element : RustType) (size : UInt64)

/-- The safe spelling of a type with the declarations that it names. -/
structure SafeForm where
  type : RustType
  conversion : Conversion

/-- The idiom stands for an object. -/
def Idiom.isObject : Idiom → Bool
  | .id | .instanceType | .classRef => true
  | .bool | .sel => false

/-- The raw spelling of an idiom. -/
def Idiom.raw : Idiom → String
  | .bool => rawBool
  | .sel => selectorType
  | .instanceType | .id | .classRef => objectPointer

/-- The safe spelling of an idiom. -/
def Idiom.safe : Idiom → SafeForm
  | .bool => ⟨.fixed "bool", .bool⟩
  | .instanceType => ⟨.fixed "Self", .object⟩
  | .id => ⟨.fixed objectPointer, .object⟩
  | .sel => ⟨.fixed selectorType, .identity⟩
  | .classRef => ⟨.fixed classPointer, .object⟩

/-- The failure of a type without a spelling. -/
def TypeExpr.unsupported (t : TypeExpr) : Failure :=
  .unsupportedType t.className t.describe

/-- The spelling of a primitive type. -/
def primitiveSpelling (name : String) : Except Failure String :=
  match Primitive.ofName name with
  | .error e => .error e
  | .ok p =>
      match p.rustName? with
      | some rust => .ok rust
      | none => .error (.unsupportedType "Builtin" name)

/-! ## §2. Names of declarations. -/

/-- A typedef or interface under its own name. -/
def RustType.ofDecl (d : Decl) : RustType := .named (Ident.escape d.name) d

namespace Scope

/-- The type as it is written in module `current`. -/
def write (s : Scope) (current : String) : RustType → Except Failure String
  | .fixed text => .ok text
  | .named ident d => s.qualify ident d current
  | .pointer target => (s.write current target).map ("*mut " ++ ·)
  | .array element size =>
      (s.write current element).map fun e => "[" ++ e ++ "; " ++ toString size.toNat ++ "]"

/-- The safe spelling as it is written in module `current`. -/
def writeSafe (s : Scope) (current : String) (form : SafeForm) : Except Failure SafeType :=
  (s.write current form.type).map (⟨·, form.conversion⟩)

/-- A record under the name of its tag. -/
def recordType (s : Scope) (usr : Usr) : Except Failure RustType :=
  (s.record usr).map fun (d, _) => .named (s.tagName d) d

/-- An enum under the name of its tag. -/
def enumType (s : Scope) (usr : Usr) : Except Failure RustType :=
  (s.enum usr).map fun (d, _) => .named (s.tagName d) d

/-- The name of a record as seen from `current`. -/
def recordName (s : Scope) (current : String) (usr : Usr) : Except Failure String :=
  (s.recordType usr).bind (s.write current)

/-- The name of an enum as seen from `current`. -/
def enumName (s : Scope) (current : String) (usr : Usr) : Except Failure String :=
  (s.enumType usr).bind (s.write current)

/-! ## §3. Raw spellings. -/

/-- The type travels as an object pointer.  `path` holds the typedefs that are
being followed. -/
def isObjectLike (s : Scope) (path : List Usr) (t : TypeExpr) : Except Failure Bool :=
  match t with
  | .wrapped _ inner => s.isObjectLike path inner
  | .objectPointer _ | .typeParam _ _ => .ok true
  | .typedef _ usr =>
      match _h : s.typedef usr with
      | .error e => .error e
      | .ok (d, type) =>
          match Idiom.detect? d.name type with
          | some idiom => .ok idiom.isObject
          | none =>
              if _hp : usr ∈ path then .error (.circular usr)
              else s.isObjectLike (usr :: path) type
  | _ => .ok false
termination_by (NameSet.missing s.table.usrs path, sizeOf t)
decreasing_by
  · apply Prod.Lex.right
    decreasing_tactic
  · exact Prod.Lex.left _ _ (NameSet.missing_cons_lt (mem_usrs_of_typedef _h) _hp)

/-- The type as it is passed on the wire.  `path` holds the typedefs that are
being followed. -/
def rawType (s : Scope) (path : List Usr) (t : TypeExpr) : Except Failure RustType :=
  match t with
  | .wrapped _ inner => s.rawType path inner
  | .builtin name => (primitiveSpelling name).map .fixed
  | .typedef _ usr =>
      match _h : s.typedef usr with
      | .error e => .error e
      | .ok (d, type) =>
          match Idiom.detect? d.name type with
          | some idiom => .ok (.fixed idiom.raw)
          | none =>
              if _hp : usr ∈ path then .error (.circular usr)
              else if s.isMerged usr then s.rawType (usr :: path) type
              else match s.isObjectLike (usr :: path) type with
                | .error e => .error e
                | .ok true => .ok (.fixed objectPointer)
                | .ok false => .ok (.ofDecl d)
  | .pointer pointee =>
      if (TypeExpr.pointer pointee).isSelShape then .ok (.fixed selectorType)
      else if pointee.stripWrappers.isVoid then .ok (.fixed "*mut libc::c_void")
      else (s.rawType path pointee).map .pointer
  | .decayed pointee =>
      if pointee.stripWrappers.isVoid then .ok (.fixed "*mut libc::c_void")
      else (s.rawType path pointee).map .pointer
  | .objectPointer _ | .typeParam _ _ => .ok (.fixed objectPointer)
  | .record usr => s.recordType usr
  | .enum usr => s.enumType usr
  | .constantArray element size => (s.rawType path element).map (.array · size)
  | other => .error other.unsupported
termination_by (NameSet.missing s.table.usrs path, sizeOf t)
decreasing_by
  all_goals first
    | exact Prod.Lex.left _ _ (NameSet.missing_cons_lt (mem_usrs_of_typedef _h) _hp)
    | (apply Prod.Lex.right
       decreasing_tactic)

/-- The type as it is passed on the wire, seen from `current`. -/
def raw (s : Scope) (current : String) (t : TypeExpr) : Except Failure String :=
  (s.rawType [] t).bind (s.write current)

/-! ## §4. Safe spellings. -/

/-- A pointer to an object: its interface if that is defined, the type of
classes for a class, and otherwise any object. -/
def objectPointerType (s : Scope) (pointee : TypeExpr) : RustType :=
  match pointee.stripWrappers with
  | .object base interface _ _ =>
      match interface.bind s.definedInterface? with
      | some d => .ofDecl d
      | none =>
          if base = some (.builtin "ObjCClass") then .fixed classPointer
          else .fixed objectPointer
  | _ => .fixed objectPointer

/-- The type of the public trait.  `path` holds the typedefs that are being
followed. -/
def safeForm (s : Scope) (path : List Usr) (t : TypeExpr) : Except Failure SafeForm :=
  let plain (r : Except Failure RustType) : Except Failure SafeForm := r.map (⟨·, .identity⟩)
  match t with
  | .wrapped _ inner => s.safeForm path inner
  | .builtin name => plain ((primitiveSpelling name).map .fixed)
  | .typedef _ usr =>
      match _h : s.typedef usr with
      | .error e => .error e
      | .ok (d, type) =>
          match Idiom.detect? d.name type with
          | some idiom => .ok idiom.safe
          | none =>
              if _hp : usr ∈ path then .error (.circular usr)
              else if s.isMerged usr then s.safeForm (usr :: path) type
              else match s.isObjectLike (usr :: path) type with
                | .error e => .error e
                | .ok isObject => .ok ⟨.ofDecl d, if isObject then .object else .identity⟩
  | .pointer _ | .decayed _ | .constantArray _ _ => plain (s.rawType path t)
  | .objectPointer pointee => .ok ⟨s.objectPointerType pointee, .object⟩
  | .typeParam name _ => .ok ⟨.fixed name, .object⟩
  | .record usr => plain (s.recordType usr)
  | .enum usr => plain (s.enumType usr)
  | other => .error other.unsupported
termination_by (NameSet.missing s.table.usrs path, sizeOf t)
decreasing_by
  all_goals first
    | exact Prod.Lex.left _ _ (NameSet.missing_cons_lt (mem_usrs_of_typedef _h) _hp)
    | (apply Prod.Lex.right
       decreasing_tactic)

/-- The type of the public trait, seen from `current`. -/
def safe (s : Scope) (current : String) (t : TypeExpr) : Except Failure SafeType :=
  (s.safeForm [] t).bind (s.writeSafe current)

end Scope

end ObjcBindings
