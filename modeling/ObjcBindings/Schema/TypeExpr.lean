/-
  ObjcBindings.Schema.TypeExpr
  ────────────────────────────────
  **TYPE EXPRESSIONS OF OBJECTIVE-C.**

  A type expression is the tree a compiler front end writes for a type.  Only
  typedefs, records, enums and object types refer to declarations, always
  through a USR, the identity key of a declaration.

      isVoid        — the builtin `Void`
      className     — the name of the outermost constructor
      describe      — the short text used in diagnostics
      stripWrappers — the type below attributes, keywords and parentheses
-/

namespace ObjcBindings

/-! ## §1. Parts of types. -/

/-- The identity key of a declaration. -/
abbrev Usr := String

/-- Whether a pointer may be null. -/
inductive Nullability where
  | nonnull
  | nullable
  deriving DecidableEq, Repr

/-- A layer around a type that never changes its representation. -/
inductive Wrapper where
  /-- Attributes of the type. -/
  | attributed (nullability : Option Nullability) (returnsRetained : Bool)
  /-- A keyword such as `struct` written in front of the type. -/
  | elaborated (keyword : Option String)
  /-- Parentheses. -/
  | paren
  deriving DecidableEq, Repr

/-- A parameter of a function type. -/
structure Slot (α : Type) where
  type : α
  isConsumed : Bool
  deriving DecidableEq, Repr

/-! ## §2. Types. -/

/-- A type expression. -/
inductive TypeExpr where
  /-- A primitive type, by the name the front end gives it. -/
  | builtin (name : String)
  /-- A reference to a typedef. -/
  | typedef (name : String) (usr : Usr)
  | pointer (pointee : TypeExpr)
  | blockPointer (pointee : TypeExpr)
  /-- A pointer that an array or function type became as a parameter. -/
  | decayed (pointee : TypeExpr)
  | objectPointer (pointee : TypeExpr)
  /-- An object type: a base or an interface, with protocols and arguments. -/
  | object (base : Option TypeExpr) (interface : Option Usr) (protocols : List String)
      (args : List TypeExpr)
  /-- A reference to a record. -/
  | record (usr : Usr)
  /-- A reference to an enum. -/
  | enum (usr : Usr)
  | wrapped (wrapper : Wrapper) (inner : TypeExpr)
  | function (params : List (Slot TypeExpr)) (result : TypeExpr) (isVariadic : Bool)
  /-- A function type without a parameter list. -/
  | functionNoProto (result : TypeExpr)
  | constantArray (element : TypeExpr) (size : UInt64)
  | incompleteArray (element : TypeExpr)
  | vector (element : TypeExpr) (lanes : UInt32)
  | extVector (element : TypeExpr) (lanes : UInt32)
  /-- A type parameter of a generic interface. -/
  | typeParam (name : String) (protocols : List String)
  /-- Any type outside the forms above. -/
  | unknown
  deriving Repr, Inhabited

namespace TypeExpr

/-! ## §3. Equality is decidable. -/

mutual

/-- Structural equality. -/
def beq : TypeExpr → TypeExpr → Bool
  | .builtin a, .builtin b => a == b
  | .typedef a u, .typedef b v => a == b && u == v
  | .pointer a, .pointer b => beq a b
  | .blockPointer a, .blockPointer b => beq a b
  | .decayed a, .decayed b => beq a b
  | .objectPointer a, .objectPointer b => beq a b
  | .object a i ps as, .object b j qs bs =>
      beqBase a b && i == j && ps == qs && beqList as bs
  | .record u, .record v => u == v
  | .enum u, .enum v => u == v
  | .wrapped w a, .wrapped x b => w == x && beq a b
  | .function ps a x, .function qs b y => beqSlots ps qs && beq a b && x == y
  | .functionNoProto a, .functionNoProto b => beq a b
  | .constantArray a m, .constantArray b n => beq a b && m == n
  | .incompleteArray a, .incompleteArray b => beq a b
  | .vector a m, .vector b n => beq a b && m == n
  | .extVector a m, .extVector b n => beq a b && m == n
  | .typeParam a ps, .typeParam b qs => a == b && ps == qs
  | .unknown, .unknown => true
  | _, _ => false

/-- Equality of optional types. -/
def beqBase : Option TypeExpr → Option TypeExpr → Bool
  | none, none => true
  | some a, some b => beq a b
  | _, _ => false

/-- Equality of lists of types. -/
def beqList : List TypeExpr → List TypeExpr → Bool
  | [], [] => true
  | a :: as, b :: bs => beq a b && beqList as bs
  | _, _ => false

/-- Equality of lists of parameters. -/
def beqSlots : List (Slot TypeExpr) → List (Slot TypeExpr) → Bool
  | [], [] => true
  | ⟨a, x⟩ :: as, ⟨b, y⟩ :: bs => beq a b && x == y && beqSlots as bs
  | _, _ => false

end

mutual

theorem beq_iff_eq : ∀ a b : TypeExpr, beq a b = true ↔ a = b
  | .builtin _, b => by cases b <;> simp [beq]
  | .typedef _ _, b => by cases b <;> simp [beq]
  | .pointer a, b => by cases b <;> simp [beq, beq_iff_eq a]
  | .blockPointer a, b => by cases b <;> simp [beq, beq_iff_eq a]
  | .decayed a, b => by cases b <;> simp [beq, beq_iff_eq a]
  | .objectPointer a, b => by cases b <;> simp [beq, beq_iff_eq a]
  | .object a _ _ as, b => by
      cases b <;> simp [beq, beqBase_iff_eq a, beqList_iff_eq as, and_assoc]
  | .record _, b => by cases b <;> simp [beq]
  | .enum _, b => by cases b <;> simp [beq]
  | .wrapped _ a, b => by cases b <;> simp [beq, beq_iff_eq a]
  | .function ps a _, b => by
      cases b <;> simp [beq, beqSlots_iff_eq ps, beq_iff_eq a, and_assoc]
  | .functionNoProto a, b => by cases b <;> simp [beq, beq_iff_eq a]
  | .constantArray a _, b => by cases b <;> simp [beq, beq_iff_eq a]
  | .incompleteArray a, b => by cases b <;> simp [beq, beq_iff_eq a]
  | .vector a _, b => by cases b <;> simp [beq, beq_iff_eq a]
  | .extVector a _, b => by cases b <;> simp [beq, beq_iff_eq a]
  | .typeParam _ _, b => by cases b <;> simp [beq]
  | .unknown, b => by cases b <;> simp [beq]

theorem beqBase_iff_eq : ∀ a b : Option TypeExpr, beqBase a b = true ↔ a = b
  | none, b => by cases b <;> simp [beqBase]
  | some a, b => by cases b <;> simp [beqBase, beq_iff_eq a]

theorem beqList_iff_eq : ∀ as bs : List TypeExpr, beqList as bs = true ↔ as = bs
  | [], bs => by cases bs <;> simp [beqList]
  | a :: as, bs => by cases bs <;> simp [beqList, beq_iff_eq a, beqList_iff_eq as]

theorem beqSlots_iff_eq :
    ∀ as bs : List (Slot TypeExpr), beqSlots as bs = true ↔ as = bs
  | [], bs => by cases bs <;> simp [beqSlots]
  | ⟨a, x⟩ :: as, bs => by
      cases bs with
      | nil => simp [beqSlots]
      | cons b bs => cases b; simp [beqSlots, beq_iff_eq a, beqSlots_iff_eq as]

end

instance : DecidableEq TypeExpr :=
  fun a b => decidable_of_iff _ (beq_iff_eq a b)

/-! ## §4. Observations. -/

/-- The builtin `Void`. -/
def isVoid : TypeExpr → Bool
  | .builtin name => name == "Void"
  | _ => false

/-- The name of the outermost constructor, as the front end writes it. -/
def className : TypeExpr → String
  | .builtin _ => "Builtin"
  | .typedef _ _ => "Typedef"
  | .pointer _ => "Pointer"
  | .blockPointer _ => "BlockPointer"
  | .decayed _ => "Decayed"
  | .objectPointer _ => "ObjCObjectPointer"
  | .object _ _ _ _ => "ObjCObject"
  | .record _ => "Record"
  | .enum _ => "Enum"
  | .wrapped (.attributed _ _) _ => "Attributed"
  | .wrapped (.elaborated _) _ => "ElaboratedType"
  | .wrapped .paren _ => "Paren"
  | .function _ _ _ => "FunctionProto"
  | .functionNoProto _ => "FunctionNoProto"
  | .constantArray _ _ => "ConstantArray"
  | .incompleteArray _ => "IncompleteArray"
  | .vector _ _ => "Vector"
  | .extVector _ _ => "ExtVector"
  | .typeParam _ _ => "ObjCTypeParam"
  | .unknown => "Unknown"

/-- The short text used in diagnostics. -/
def describe : TypeExpr → String
  | .builtin name => name
  | .typedef name _ => name
  | .pointer pointee | .decayed pointee | .objectPointer pointee => pointee.describe ++ " *"
  | .blockPointer pointee => "^(" ++ pointee.describe ++ ")"
  | .object (some base) _ _ _ => base.describe
  | .object none (some usr) _ _ => usr
  | .object none none _ _ => "ObjCObject"
  | .record usr | .enum usr => usr
  | .wrapped _ inner => inner.describe
  | .constantArray element size => element.describe ++ "[" ++ toString size.toNat ++ "]"
  | .incompleteArray element => element.describe ++ "[]"
  | .typeParam name _ => name
  | other => other.className

/-- The type below the wrappers that never change its representation. -/
def stripWrappers : TypeExpr → TypeExpr
  | .wrapped _ inner => inner.stripWrappers
  | other => other

/-- Induction on the wrappers around a type. -/
theorem wrapper_induction {motive : TypeExpr → Prop}
    (wrapped : ∀ w inner, motive inner → motive (.wrapped w inner))
    (plain : ∀ t, (∀ w inner, t ≠ .wrapped w inner) → motive t) (t : TypeExpr) : motive t := by
  refine stripWrappers.induct motive ?wrapped ?plain t
  case wrapped => exact wrapped
  case plain => exact fun t hplain => plain t fun w inner h => hplain w inner h

/-- A type that is no wrapper stays. -/
theorem stripWrappers_of_plain {t : TypeExpr} (plain : ∀ w inner, t ≠ .wrapped w inner) :
    t.stripWrappers = t := by
  cases t with
  | wrapped w inner => exact absurd rfl (plain w inner)
  | _ => rfl

end TypeExpr

end ObjcBindings
