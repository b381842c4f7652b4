/-
  ObjcBindings.Schema.Decode
  ────────────────────────────────
  **DECLARATIONS FROM JSON.**

  The unit, the declarations at its top level and their locations are read in
  the order of the text, so the first fault of the text is the one reported.
  Everything else is first accepted as a whole — complete, readable and within
  the nesting limit — and then taken apart by field names.

      nestingLimit        — how deep arrays and objects may nest
      TypeExpr.decode     — a type inside an accepted value
      Decl.decode         — a declaration
      decodeType          — a type that is a text of its own
      decodeRoot          — a whole translation unit

  The bound of `TypeExpr.decode` and `Decl.decode` counts nested types and
  declarations; an accepted value never reaches it.
-/
import ObjcBindings.Schema.Decl
import ObjcBindings.Text.Json.Shape

namespace ObjcBindings

open Text (Json Fault Document)
open Text.Json

/-- Arrays and objects may nest this deep. -/
def nestingLimit : Nat := 127

/-! ## §1. Words. -/

/-- A nullability. -/
def Nullability.decode (value : Json) : Except Fault Nullability :=
  match asChoice value with
  | .ok "nonnull" => .ok .nonnull
  | .ok "nullable" => .ok .nullable
  | .ok _ => .error .mismatch
  | .error fault => .error fault

/-- The keyword of a record. -/
def TagKind.decode (value : Json) : Except Fault TagKind :=
  match asChoice value with
  | .ok "struct" => .ok .struct
  | .ok "union" => .ok .union
  | .ok "class" => .ok .classTag
  | .ok _ => .error .mismatch
  | .error fault => .error fault

/-- A protocol's demand. -/
def ImplementationControl.decode (value : Json) : Except Fault ImplementationControl :=
  match asChoice value with
  | .ok "required" => .ok .required
  | .ok "optional" => .ok .optional
  | .ok _ => .error .mismatch
  | .error fault => .error fault

/-! ## §2. Types. -/

namespace TypeExpr

/-- The class of a type and the value of its other fields: an object names its
class in one of its fields, an array in its first item. -/
def split : Json → Except Fault (String × Json)
  | .obj fields => (required fields "type_class" asString).map (·, .obj fields)
  | .arr (first :: rest) => (asString first).map (·, .arr rest)
  | .arr [] => .error .mismatch
  | other => .error other.wrong

/-- A parameter of a function type. -/
def decodeSlot (type : Json → Except Fault TypeExpr) (value : Json) :
    Except Fault (Slot TypeExpr) := do
  let fs ← recordFields .mismatch ["type", "is_consumed"] value
  return ⟨← required fs "type" type, ← defaulted fs "is_consumed" false asBool⟩

/-- The fields of a type of class `className`, with the reader of the types
inside it. -/
def decodeBody (type : Json → Except Fault TypeExpr) (className : String) (body : Json) :
    Except Fault TypeExpr := do
  let fields := fun names => recordFields .mismatch names body
  match className with
  | "Builtin" => do
      let fs ← fields ["name"]
      return .builtin (← required fs "name" asString)
  | "Typedef" => do
      let fs ← fields ["name", "decl_usr"]
      return .typedef (← required fs "name" asString) (← required fs "decl_usr" asString)
  | "Pointer" => do
      let fs ← fields ["pointee"]
      return .pointer (← required fs "pointee" type)
  | "BlockPointer" => do
      let fs ← fields ["pointee"]
      return .blockPointer (← required fs "pointee" type)
  | "Decayed" => do
      let fs ← fields ["pointee"]
      return .decayed (← required fs "pointee" type)
  | "ObjCObjectPointer" => do
      let fs ← fields ["pointee"]
      return .objectPointer (← required fs "pointee" type)
  | "ObjCObject" | "ObjCInterface" => do
      let fs ← fields ["base_type", "interface_usr", "protocols", "type_args"]
      return .object (← optional fs "base_type" type) (← optional fs "interface_usr" asString)
        (← defaulted fs "protocols" [] asStrings) (← defaulted fs "type_args" [] (asList type))
  | "Record" => do
      let fs ← fields ["decl_usr"]
      return .record (← required fs "decl_usr" asString)
  | "Enum" => do
      let fs ← fields ["decl_usr"]
      return .enum (← required fs "decl_usr" asString)
  | "Attributed" => do
      let fs ← fields ["modified_type", "nullability", "ns_returns_retained"]
      let inner ← required fs "modified_type" type
      return .wrapped (.attributed (← optional fs "nullability" Nullability.decode)
        (← defaulted fs "ns_returns_retained" false asBool)) inner
  | "ElaboratedType" => do
      let fs ← fields ["named_type", "keyword"]
      let inner ← required fs "named_type" type
      return .wrapped (.elaborated (← optional fs "keyword" asString)) inner
  | "Paren" => do
      let fs ← fields ["inner_type"]
      return .wrapped .paren (← required fs "inner_type" type)
  | "FunctionProto" => do
      let fs ← fields ["params", "return_type", "is_variadic"]
      return .function (← defaulted fs "params" [] (asList (decodeSlot type)))
        (← required fs "return_type" type) (← defaulted fs "is_variadic" false asBool)
  | "FunctionNoProto" => do
      let fs ← fields ["return_type"]
      return .functionNoProto (← required fs "return_type" type)
  | "ConstantArray" => do
      let fs ← fields ["element_type", "size"]
      return .constantArray (← required fs "element_type" type) (← required fs "size" asUInt64)
  | "IncompleteArray" => do
      let fs ← fields ["element_type"]
      return .incompleteArray (← required fs "element_type" type)
  | "Vector" => do
      let fs ← fields ["element_type", "num_elements"]
      return .vector (← required fs "element_type" type) (← required fs "num_elements" asUInt32)
  | "ExtVector" => do
      let fs ← fields ["element_type", "num_elements"]
      return .extVector (← required fs "element_type" type)
        (← required fs "num_elements" asUInt32)
  | "ObjCTypeParam" => do
      let fs ← fields ["name", "protocols"]
      return .typeParam (← required fs "name" asString) (← defaulted fs "protocols" [] asStrings)
  | _ => do
      let _ ← fields []
      return .unknown

/-- A type inside an accepted value, at most `bound` types deep. -/
def decode : Nat → Json → Except Fault TypeExpr
  | 0, value => .error value.wrong
  | bound + 1, value =>
      match split value with
      | .error fault => .error fault
      | .ok (className, body) => decodeBody (decode bound) className body

end TypeExpr

/-! ## §3. Parts of declarations. -/

/-- A place in a header. -/
def Location.decode (excess : Fault) (value : Json) : Except Fault Location := do
  let fs ← recordFields excess ["file", "line"] value
  let known : String → Option (Json → Except Fault Unit)
    | "file" => some (discard asString)
    | "line" => some (discard (asOption asUInt32))
    | _ => none
  scan known skip [] fs
  return ⟨← required fs "file" asString, ← optional fs "line" asUInt32⟩

/-- A named parameter. -/
def Param.decode (bound : Nat) (value : Json) : Except Fault Param := do
  let fs ← recordFields .mismatch ["name", "type", "attrs"] value
  let attrs := fun a => do
    let fs ← recordFields .mismatch ["is_consumed"] a
    defaulted fs "is_consumed" false asBool
  return ⟨← defaulted fs "name" "" asString, ← required fs "type" (TypeExpr.decode bound),
    ← defaulted fs "attrs" false attrs⟩

/-- The ownership attributes of a method. -/
def MethodAttrs.decode (value : Json) : Except Fault MethodAttrs := do
  let fs ← recordFields .mismatch ["ns_returns_retained", "self_is_consumed"] value
  return ⟨← defaulted fs "ns_returns_retained" false asBool,
    ← defaulted fs "self_is_consumed" false asBool⟩

/-- A method signature from its fields. -/
def Method.decode (bound : Nat) (fs : List (String × Json)) : Except Fault Method := do
  return {
    selector := ← required fs "selector" asString
    isInstance := ← required fs "is_instance_method" asBool
    params := ← required fs "params" (asList (Param.decode bound))
    result := ← required fs "return_type" (TypeExpr.decode bound)
    isVariadic := ← defaulted fs "is_variadic" false asBool
    family := ← optional fs "method_family" asString
    control := ← optional fs "implementation_control" ImplementationControl.decode
    attrs := ← defaulted fs "attrs" ⟨false, false⟩ MethodAttrs.decode }

/-! ## §4. Declarations. -/

/-- The payload of a declaration of kind `kind`, with the reader of the
declarations inside it. -/
def DeclKind.decode (decl : Json → Except Fault Decl) (bound : Nat) (kind : String)
    (fs : List (String × Json)) : Except Fault DeclKind := do
  let type := TypeExpr.decode bound
  match kind with
  | "ObjCInterface" | "Interface" => do
      return .interface (← defaulted fs "children" [] (asList decl))
        (← defaulted fs "protocols" [] asStrings) (← optional fs "super_class_usr" asString)
        (← defaulted fs "type_params" [] asStrings)
  | "ObjCProtocol" | "Protocol" => do
      return .protocol (← defaulted fs "children" [] (asList decl))
        (← defaulted fs "protocols" [] asStrings)
  | "ObjCCategory" | "Category" => do
      return .category (← required fs "class_name" asString)
        (← defaulted fs "children" [] (asList decl)) (← defaulted fs "protocols" [] asStrings)
  | "ObjCMethod" | "Method" => do
      return .method (← Method.decode bound fs)
  | "ObjCProperty" | "Property" => do
      return .property (← required fs "type" type)
  | "ObjCIvar" | "Ivar" => do
      return .ivar (← required fs "type" type)
  | "Typedef" => do
      return .typedef (← required fs "type" type)
  | "Record" => do
      return .record (← required fs "fields" (asList decl))
        (← required fs "tag_kind" TagKind.decode)
  | "Field" => do
      return .field (← required fs "type" type) (← optional fs "bit_width" asUInt32)
  | "Enum" => do
      return .enum (← optional fs "integer_type" type)
        (← defaulted fs "is_closed" false asBool)
        (← defaulted fs "enumerators" [] (asList decl))
  | "EnumConstant" => do
      return .enumConstant (← optional fs "value" asString)
  | "Function" => do
      return .function (← required fs "type" type)
        (← defaulted fs "params" [] (asList (Param.decode bound)))
        (← defaulted fs "is_variadic" false asBool) (← defaulted fs "has_body" false asBool)
  | "Var" => do
      return .var (← required fs "type" type)
  | _ => .error .mismatch

/-- The readers of the fields that every declaration has. -/
def Decl.ownField (excess : Fault) : String → Option (Json → Except Fault Unit)
  | "usr" => some (discard asString)
  | "name" => some (discard asString)
  | "location" => some (discard (asOption (Location.decode excess)))
  | "is_implicit" => some (discard asBool)
  | "is_referenced" => some (discard asBool)
  | "is_forward_declaration" => some (discard asBool)
  | _ => none

/-- A declaration from its fields, with the reader of the declarations inside
it. -/
def Decl.decodeFields (decl : Json → Except Fault Decl) (excess : Fault) (bound : Nat)
    (fs : List (String × Json)) : Except Fault Decl := do
  return {
    usr := ← required fs "usr" asString
    name := ← defaulted fs "name" "" asString
    location := ← optional fs "location" (Location.decode excess)
    isImplicit := ← defaulted fs "is_implicit" false asBool
    isReferenced := ← defaulted fs "is_referenced" false asBool
    isForward := ← defaulted fs "is_forward_declaration" false asBool
    kind := ← DeclKind.decode decl bound (← required fs "kind" asString) fs }

/-- A declaration inside an accepted value, at most `bound` declarations
deep. -/
def Decl.decode : Nat → Json → Except Fault Decl
  | 0, value => .error value.wrong
  | bound + 1, .obj fs => Decl.decodeFields (Decl.decode bound) .mismatch bound fs
  | _ + 1, other => .error other.wrong

/-! ## §5. Whole texts. -/

/-- A declaration at the top level of a unit.  Its fields are read in the
order of the text; two containers and the declaration itself are around what
they hold. -/
def Decl.decodeTop : Json → Except Fault Decl
  | .obj fs =>
      match scan (Decl.ownField .malformed) (keep (nestingLimit - 3)) [] fs with
      | .error fault => .error fault
      | .ok () => Decl.decodeFields (Decl.decode nestingLimit) .malformed nestingLimit fs
  | other => .error other.wrong

/-- The kind that a unit claims to have, and its declarations. -/
def decodeRoot (value : Json) : Except Fault (String × List Decl) := do
  let fs ← recordFields .malformed ["kind", "children"] value
  let known : String → Option (Json → Except Fault Unit)
    | "kind" => some (discard asString)
    | "children" => some (discard (asList Decl.decodeTop))
    | _ => none
  scan known skip [] fs
  return (← required fs "kind" asString, ← defaulted fs "children" [] (asList Decl.decodeTop))

/-- Accept the value of a type that is a text of its own, in the order of the
text. -/
def TypeExpr.accept : Json → Except Fault Unit
  | .obj fs =>
      scan (fun name => if name = "type_class" then some (discard asString) else none)
        (keep (nestingLimit - 1)) [] fs
  | .arr (first :: rest) =>
      match asString first with
      | .error fault => .error fault
      | .ok _ => (mapItems (keep (nestingLimit - 1)) rest).map fun _ => ()
  | _ => .ok ()

/-- A type that is a text of its own. -/
def decodeType (value : Json) : Except Fault TypeExpr :=
  match TypeExpr.accept value with
  | .error fault => .error fault
  | .ok () => TypeExpr.decode nestingLimit value

/-- A method signature that is a value of its own. -/
def decodeMethod (value : Json) : Except Fault Method := do
  let fs ← recordFields .mismatch ["selector", "is_instance_method", "params", "return_type",
    "is_variadic", "method_family", "implementation_control", "attrs"] value
  Method.decode nestingLimit fs

/-- Nothing but white space may follow the value of a text. -/
def Document.decode {α : Type} (read : Json → Except Fault α) (d : Document) :
    Except Fault α :=
  match read d.root, d.trailing with
  | .error fault, _ => .error fault
  | .ok _, some fault => .error fault
  | .ok x, none => .ok x

end ObjcBindings
