/-
  ObjcBindings.Schema.Decl
  ────────────────────────────────
  **DECLARATIONS.**

  A declaration has an identity key, a name, a place in a header, three flags
  of the front end, and the payload of its kind.  Interfaces, protocols and
  categories are the containers that bindings are written for.

      kindName     — the name of a kind
      displayName  — the name shown to a reader
      children     — the members of a container
      methods      — the methods among them
      protocols    — the names of the protocols a container conforms to
-/
import ObjcBindings.Schema.TypeExpr

namespace ObjcBindings

/-! ## §1. Parts of declarations. -/

/-- A place in a header. -/
structure Location where
  file : String
  line : Option UInt32
  deriving DecidableEq, Repr

/-- Whether a protocol demands a method. -/
inductive ImplementationControl where
  | required
  | optional
  deriving DecidableEq, Repr

/-- Ownership attributes of a method. -/
structure MethodAttrs where
  returnsRetained : Bool
  consumesSelf : Bool
  deriving DecidableEq, Repr

/-- A named parameter. -/
structure Param where
  name : String
  type : TypeExpr
  isConsumed : Bool
  deriving DecidableEq, Repr

/-- A method signature. -/
structure Method where
  selector : String
  isInstance : Bool
  params : List Param
  result : TypeExpr
  isVariadic : Bool
  family : Option String
  control : Option ImplementationControl
  attrs : MethodAttrs
  deriving DecidableEq, Repr

/-- The keyword of a record. -/
inductive TagKind where
  | struct
  | union
  | classTag
  deriving DecidableEq, Repr

/-! ## §2. Declarations. -/

mutual

/-- What a declaration declares. -/
inductive DeclKind where
  | interface (children : List Decl) (protocols : List String) (superclass : Option Usr)
      (typeParams : List String)
  | protocol (children : List Decl) (protocols : List String)
  | category (className : String) (children : List Decl) (protocols : List String)
  | method (signature : Method)
  | property (type : TypeExpr)
  | ivar (type : TypeExpr)
  | typedef (type : TypeExpr)
  | record (fields : List Decl) (tag : TagKind)
  | field (type : TypeExpr) (bitWidth : Option UInt32)
  | enum (integerType : Option TypeExpr) (isClosed : Bool) (enumerators : List Decl)
  /-- The value is a decimal text, so that every 64-bit value has one. -/
  | enumConstant (value : Option String)
  | function (type : TypeExpr) (params : List Param) (isVariadic : Bool) (hasBody : Bool)
  | var (type : TypeExpr)

/-- A declaration. -/
structure Decl where
  usr : Usr
  name : String
  /-- Absent for declarations that the front end made up. -/
  location : Option Location
  isImplicit : Bool
  isReferenced : Bool
  /-- The front end saw a declaration without a definition. -/
  isForward : Bool
  kind : DeclKind

end

instance : Inhabited DeclKind := ⟨.protocol [] []⟩

instance : Inhabited Decl := ⟨⟨"", "", none, false, false, false, default⟩⟩

/-- Everything one run of the front end has seen. -/
structure TranslationUnit where
  children : List Decl
  deriving Inhabited

/-! ## §3. Equality is decidable. -/

mutual

/-- Structural equality of kinds. -/
def DeclKind.beq : DeclKind → DeclKind → Bool
  | .interface a ps s ts, .interface b qs t us =>
      Decl.beqList a b && ps == qs && s == t && ts == us
  | .protocol a ps, .protocol b qs => Decl.beqList a b && ps == qs
  | .category n a ps, .category m b qs => n == m && Decl.beqList a b && ps == qs
  | .method a, .method b => a == b
  | .property a, .property b => a == b
  | .ivar a, .ivar b => a == b
  | .typedef a, .typedef b => a == b
  | .record a s, .record b t => Decl.beqList a b && s == t
  | .field a m, .field b n => a == b && m == n
  | .enum a c es, .enum b d fs => a == b && c == d && Decl.beqList es fs
  | .enumConstant a, .enumConstant b => a == b
  | .function a ps v h, .function b qs w i => a == b && ps == qs && v == w && h == i
  | .var a, .var b => a == b
  | _, _ => false

/-- Structural equality of declarations. -/
def Decl.beq : Decl → Decl → Bool
  | ⟨u, n, l, i, r, f, k⟩, ⟨v, m, l', i', r', f', k'⟩ =>
      u == v && n == m && l == l' && i == i' && r == r' && f == f' && DeclKind.beq k k'

/-- Structural equality of lists of declarations. -/
def Decl.beqList : List Decl → List Decl → Bool
  | [], [] => true
  | a :: as, b :: bs => Decl.beq a b && Decl.beqList as bs
  | _, _ => false

end

mutual

theorem DeclKind.beq_iff_eq : ∀ a b : DeclKind, DeclKind.beq a b = true ↔ a = b
  | .interface cs _ _ _, b => by
      cases b <;> simp [DeclKind.beq, Decl.beqList_iff_eq cs, and_assoc]
  | .protocol cs _, b => by cases b <;> simp [DeclKind.beq, Decl.beqList_iff_eq cs]
  | .category _ cs _, b => by
      cases b <;> simp [DeclKind.beq, Decl.beqList_iff_eq cs, and_assoc]
  | .method _, b => by cases b <;> simp [DeclKind.beq]
  | .property _, b => by cases b <;> simp [DeclKind.beq]
  | .ivar _, b => by cases b <;> simp [DeclKind.beq]
  | .typedef _, b => by cases b <;> simp [DeclKind.beq]
  | .record cs _, b => by cases b <;> simp [DeclKind.beq, Decl.beqList_iff_eq cs]
  | .field _ _, b => by cases b <;> simp [DeclKind.beq]
  | .enum _ _ cs, b => by
      cases b <;> simp [DeclKind.beq, Decl.beqList_iff_eq cs, and_assoc]
  | .enumConstant _, b => by cases b <;> simp [DeclKind.beq]
  | .function _ _ _ _, b => by cases b <;> simp [DeclKind.beq, and_assoc]
  | .var _, b => by cases b <;> simp [DeclKind.beq]

theorem Decl.beq_iff_eq : ∀ a b : Decl, Decl.beq a b = true ↔ a = b
  | ⟨_, _, _, _, _, _, k⟩, b => by
      cases b
      simp [Decl.beq, DeclKind.beq_iff_eq k, and_assoc]

theorem Decl.beqList_iff_eq : ∀ as bs : List Decl, Decl.beqList as bs = true ↔ as = bs
  | [], bs => by cases bs <;> simp [Decl.beqList]
  | a :: as, bs => by
      cases bs <;> simp [Decl.beqList, Decl.beq_iff_eq a, Decl.beqList_iff_eq as]

end

instance : DecidableEq DeclKind :=
  fun a b => decidable_of_iff _ (DeclKind.beq_iff_eq a b)

instance : DecidableEq Decl :=
  fun a b => decidable_of_iff _ (Decl.beq_iff_eq a b)

/-! ## §4. Observations. -/

/-- The name of a kind, as the front end writes it. -/
def DeclKind.name : DeclKind → String
  | .interface _ _ _ _ => "ObjCInterface"
  | .protocol _ _ => "ObjCProtocol"
  | .category _ _ _ => "ObjCCategory"
  | .method _ => "ObjCMethod"
  | .property _ => "ObjCProperty"
  | .ivar _ => "ObjCIvar"
  | .typedef _ => "Typedef"
  | .record _ _ => "Record"
  | .field _ _ => "Field"
  | .enum _ _ _ => "Enum"
  | .enumConstant _ => "EnumConstant"
  | .function _ _ _ _ => "Function"
  | .var _ => "Var"

namespace Decl

/-- The name of the declaration's kind. -/
def kindName (d : Decl) : String := d.kind.name

/-- A category is shown with its class, all else by its own name. -/
def displayName (d : Decl) : String :=
  match d.kind with
  | .category className _ _ => className ++ "(" ++ d.name ++ ")"
  | _ => d.name

/-- Interfaces, protocols and categories: what bindings are written for. -/
def isContainer (d : Decl) : Bool :=
  match d.kind with
  | .interface _ _ _ _ | .protocol _ _ | .category _ _ _ => true
  | _ => false

/-- The declaration is an interface. -/
def isInterface (d : Decl) : Bool :=
  match d.kind with
  | .interface _ _ _ _ => true
  | _ => false

/-- The declaration is a protocol. -/
def isProtocol (d : Decl) : Bool :=
  match d.kind with
  | .protocol _ _ => true
  | _ => false

/-- The members of a container. -/
def children (d : Decl) : List Decl :=
  match d.kind with
  | .interface cs _ _ _ | .protocol cs _ | .category _ cs _ => cs
  | _ => []

/-- The signature of a method declaration. -/
def signature? (d : Decl) : Option Method :=
  match d.kind with
  | .method m => some m
  | _ => none

/-- The methods of a container, in order. -/
def methods (d : Decl) : List Method :=
  d.children.filterMap signature?

/-- The names of the protocols a container conforms to, in order. -/
def protocols (d : Decl) : List String :=
  match d.kind with
  | .interface _ ps _ _ | .protocol _ ps | .category _ _ ps => ps
  | _ => []

/-- The header the declaration stands in. -/
def file? (d : Decl) : Option String :=
  d.location.map Location.file

end Decl

end ObjcBindings
