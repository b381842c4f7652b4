/-
  ObjcBindings.Schema.Encode
  ────────────────────────────────
  **DECLARATIONS AS JSON.**

  Every field of a declaration or type is written, also those that have their
  default value; an absent value is `null`.
-/
import ObjcBindings.Schema.Decl
import ObjcBindings.Text.Json

namespace ObjcBindings

open Text (Json)

/-! ## §1. Scalars and lists. -/

/-- Nothing is `null`. -/
def encodeOption {α : Type} (encode : α → Json) : Option α → Json
  | none => .null
  | some x => encode x

/-- A list of strings. -/
def encodeStrings (ss : List String) : Json :=
  .arr (ss.map .str)

/-- The written form of a nullability. -/
def Nullability.keyword : Nullability → String
  | .nonnull => "nonnull"
  | .nullable => "nullable"

/-- The written form of a record's keyword. -/
def TagKind.keyword : TagKind → String
  | .struct => "struct"
  | .union => "union"
  | .classTag => "class"

/-- The written form of a protocol's demand. -/
def ImplementationControl.keyword : ImplementationControl → String
  | .required => "required"
  | .optional => "optional"

/-! ## §2. Types. -/

namespace TypeExpr

/-- A type of class `className` with its fields. -/
def tagged (className : String) (fields : List (String × Json)) : Json :=
  .obj (("type_class", .str className) :: fields)

mutual

/-- A type as JSON. -/
def encode : TypeExpr → Json
  | .builtin name => tagged "Builtin" [("name", .str name)]
  | .typedef name usr => tagged "Typedef" [("name", .str name), ("decl_usr", .str usr)]
  | .pointer pointee => tagged "Pointer" [("pointee", encode pointee)]
  | .blockPointer pointee => tagged "BlockPointer" [("pointee", encode pointee)]
  | .decayed pointee => tagged "Decayed" [("pointee", encode pointee)]
  | .objectPointer pointee => tagged "ObjCObjectPointer" [("pointee", encode pointee)]
  | .object base interface protocols args =>
      tagged "ObjCObject"
        [("base_type", encodeBase base), ("interface_usr", encodeOption .str interface),
         ("protocols", encodeStrings protocols), ("type_args", .arr (encodeList args))]
  | .record usr => tagged "Record" [("decl_usr", .str usr)]
  | .enum usr => tagged "Enum" [("decl_usr", .str usr)]
  | .wrapped (.attributed nullability returnsRetained) inner =>
      tagged "Attributed"
        [("modified_type", encode inner),
         ("nullability", encodeOption (fun n => .str n.keyword) nullability),
         ("ns_returns_retained", .bool returnsRetained)]
  | .wrapped (.elaborated keyword) inner =>
      tagged "ElaboratedType"
        [("named_type", encode inner), ("keyword", encodeOption .str keyword)]
  | .wrapped .paren inner => tagged "Paren" [("inner_type", encode inner)]
  | .function params result isVariadic =>
      tagged "FunctionProto"
        [("params", .arr (encodeSlots params)), ("return_type", encode result),
         ("is_variadic", .bool isVariadic)]
  | .functionNoProto result => tagged "FunctionNoProto" [("return_type", encode result)]
  | .constantArray element size =>
      tagged "ConstantArray" [("element_type", encode element), ("size", .natural size.toNat)]
  | .incompleteArray element => tagged "IncompleteArray" [("element_type", encode element)]
  | .vector element lanes =>
      tagged "Vector"
        [("element_type", encode element), ("num_elements", .natural lanes.toNat)]
  | .extVector element lanes =>
      tagged "ExtVector"
        [("element_type", encode element), ("num_elements", .natural lanes.toNat)]
  | .typeParam name protocols =>
      tagged "ObjCTypeParam" [("name", .str name), ("protocols", encodeStrings protocols)]
  | .unknown => tagged "Unknown" []

/-- An optional type. -/
def encodeBase : Option TypeExpr → Json
  | none => .null
  | some base => encode base

/-- A list of types. -/
def encodeList : List TypeExpr → List Json
  | [] => []
  | t :: ts => encode t :: encodeList ts

/-- The parameters of a function type. -/
def encodeSlots : List (Slot TypeExpr) → List Json
  | [] => []
  | ⟨type, isConsumed⟩ :: slots =>
      .obj [("type", encode type), ("is_consumed", .bool isConsumed)] :: encodeSlots slots

end

end TypeExpr

/-! ## §3. Declarations. -/

/-- A place in a header. -/
def Location.encode (l : Location) : Json :=
  .obj [("file", .str l.file), ("line", encodeOption (fun n => .natural n.toNat) l.line)]

/-- A named parameter. -/
def Param.encode (p : Param) : Json :=
  .obj [("name", .str p.name), ("type", p.type.encode),
        ("attrs", .obj [("is_consumed", .bool p.isConsumed)])]

/-- The fields of a method signature. -/
def Method.encodeFields (m : Method) : List (String × Json) :=
  [("selector", .str m.selector), ("is_instance_method", .bool m.isInstance),
   ("params", .arr (m.params.map Param.encode)), ("return_type", m.result.encode),
   ("is_variadic", .bool m.isVariadic), ("method_family", encodeOption .str m.family),
   ("implementation_control", encodeOption (fun c => .str c.keyword) m.control),
   ("attrs", .obj [("ns_returns_retained", .bool m.attrs.returnsRetained),
                   ("self_is_consumed", .bool m.attrs.consumesSelf)])]

mutual

/-- The fields of a kind. -/
def DeclKind.encodeFields : DeclKind → List (String × Json)
  | .interface children protocols superclass typeParams =>
      [("children", .arr (Decl.encodeList children)), ("protocols", encodeStrings protocols),
       ("super_class_usr", encodeOption .str superclass),
       ("type_params", encodeStrings typeParams)]
  | .protocol children protocols =>
      [("children", .arr (Decl.encodeList children)), ("protocols", encodeStrings protocols)]
  | .category className children protocols =>
      [("class_name", .str className), ("children", .arr (Decl.encodeList children)),
       ("protocols", encodeStrings protocols)]
  | .method m => m.encodeFields
  | .property type | .ivar type | .typedef type | .var type => [("type", type.encode)]
  | .record fields tag =>
      [("fields", .arr (Decl.encodeList fields)), ("tag_kind", .str tag.keyword)]
  | .field type bitWidth =>
      [("type", type.encode), ("bit_width", encodeOption (fun n => .natural n.toNat) bitWidth)]
  | .enum integerType isClosed enumerators =>
      [("integer_type", encodeOption TypeExpr.encode integerType),
       ("is_closed", .bool isClosed), ("enumerators", .arr (Decl.encodeList enumerators))]
  | .enumConstant value => [("value", encodeOption .str value)]
  | .function type params isVariadic hasBody =>
      [("type", type.encode), ("params", .arr (params.map Param.encode)),
       ("is_variadic", .bool isVariadic), ("has_body", .bool hasBody)]

/-- A declaration as JSON. -/
def Decl.encode : Decl → Json
  | ⟨usr, name, location, isImplicit, isReferenced, isForward, kind⟩ =>
      .obj ([("usr", .str usr), ("name", .str name),
             ("location", encodeOption Location.encode location),
             ("is_implicit", .bool isImplicit), ("is_referenced", .bool isReferenced),
             ("is_forward_declaration", .bool isForward), ("kind", .str kind.name)]
            ++ DeclKind.encodeFields kind)

/-- A list of declarations. -/
def Decl.encodeList : List Decl → List Json
  | [] => []
  | d :: ds => Decl.encode d :: Decl.encodeList ds

end

/-- A translation unit as JSON. -/
def TranslationUnit.encode (unit : TranslationUnit) : Json :=
  .obj [("kind", .str "TranslationUnit"), ("children", .arr (Decl.encodeList unit.children))]

end ObjcBindings
