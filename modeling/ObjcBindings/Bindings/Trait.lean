/-
  ObjcBindings.Bindings.Trait
  ────────────────────────────────
  **A PAIR OF TRAITS.**

  For every method the raw trait has an unsafe function that sends the
  message, with all types as they are on the wire.  The safe trait has a
  function that converts the arguments, calls the raw one, and converts the
  result.

      rawTrait        — the trait that sends messages
      safeTrait       — the trait that users call
      wrapper         — the type of an interface
      containerItem   — all that is written for a container
-/
import ObjcBindings.Bindings.Code
import ObjcBindings.Bindings.Name
import ObjcBindings.Bindings.Prelude
import ObjcBindings.Interop.Spelling

namespace ObjcBindings

open Text

/-! ## §1. Signatures. -/

/-- What a function demands of the type that implements its trait. -/
inductive SelfBound where
  | nothing
  /-- Its values have a known size. -/
  | sized
  /-- It is a class. -/
  | classObject
  deriving DecidableEq, Repr

/-- The clause that states a demand. -/
def SelfBound.clause : SelfBound → String
  | .nothing => ""
  | .sized => "\nwhere\n    Self: Sized,"
  | .classObject => "\nwhere\n    Self: ObjCClass + Sized,"

/-- A function with one statement as its body. -/
def functionItem (head : String) (params : List String) (result : String) (bound : SelfBound)
    (body : String) : String :=
  let signature := head ++ "(" ++ ", ".intercalate params ++ ")" ++ result ++ bound.clause
  let opening := if bound = .nothing then " \x7b" else "\n\x7b"
  signature ++ opening ++ "\n    " ++ body ++ "\n\x7d"

/-- The parameter for the receiver of an instance method. -/
def Method.selfParam (m : Method) : List String :=
  if m.isInstance then ["&self"] else []

/-- The method returns nothing. -/
def Method.returnsVoid (m : Method) : Bool :=
  m.result.stripWrappers.isVoid

/-- The arguments of a message send as a tuple. -/
def argumentTuple : List String → String
  | [] => "()"
  | [arg] => "(" ++ arg ++ ",)"
  | args => "(" ++ ", ".intercalate args ++ ")"

/-- A trait with its supertraits and functions. -/
def traitItem (name supertraits : String) (functions : List String) : String :=
  let head := "pub trait " ++ name ++ ": " ++ supertraits
  if functions.isEmpty then head ++ " \x7b\x7d"
  else enclosed head (paragraphs (functions.map indent))

/-- Do something with every member, up to the first failure. -/
def collect {α β : Type} (f : α → Except Failure β) : List α → Except Failure (List β)
  | [] => .ok []
  | x :: xs => do
      let y ← f x
      return y :: (← collect f xs)

namespace Scope

/-! ## §2. The raw trait. -/

/-- The raw function of a method. -/
def rawFunction (s : Scope) (current : String) (selectors : SelectorTable)
    (bound : BoundMethod) : Except Failure String := do
  let m := bound.method
  let params ← collect (fun (name, p) => (s.raw current p.type).map (name ++ ": " ++ ·))
    (bound.params.zip m.params)
  let result ← if m.returnsVoid then .ok "()" else s.raw current m.result
  let receiver :=
    if m.isInstance then "ObjCObject::ptr(self)" else "<Self as ObjCClass>::class_ptr()"
  return functionItem ("unsafe fn " ++ bound.name) (m.selfParam ++ params)
    (if m.returnsVoid then "" else " -> " ++ result)
    (if m.isInstance then .nothing else .classObject)
    ("send_message::<_, " ++ result ++ ">(" ++ receiver ++ ", *selectors::"
      ++ selectors.ident m.selector ++ ", " ++ argumentTuple bound.params ++ ")")

/-- What the raw trait of a container extends: for a category the raw trait of
its class. -/
def rawBase (s : Scope) (current : String) (c : Container) : Except Failure String :=
  match c.kind with
  | .category => s.qualify (c.decl.name ++ "InterfaceRaw") c.decl current
  | _ => .ok "ObjCObject"

/-- The raw trait of a container. -/
def rawTrait (s : Scope) (current : String) (selectors : SelectorTable) (c : Container)
    (methods : List BoundMethod) : Except Failure String := do
  let base ← s.rawBase current c
  return traitItem c.rawTraitName base (← collect (s.rawFunction current selectors) methods)

end Scope

/-! ## §3. Ownership. -/

/-- Families of methods whose result the caller owns. -/
def retainingFamilies : List String := ["alloc", "copy", "init", "mutableCopy", "new"]

/-- The outermost layer of the type is an attribute that says so. -/
def TypeExpr.isMarkedRetained : TypeExpr → Bool
  | .wrapped (.attributed _ returnsRetained) _ => returnsRetained
  | _ => false

/-- The caller owns the result, which has the safe spelling `result`: an
attribute says so, or it is an object and the method is of such a family. -/
def Method.returnsOwned (m : Method) (result : SafeType) : Bool :=
  m.attrs.returnsRetained || m.result.isMarkedRetained
    || (decide (result.conversion = .object)
        && m.family.any fun family => decide (family ∈ retainingFamilies))

/-- The documentation of a safe function, line by line. -/
def BoundMethod.docLines (bound : BoundMethod) (result : Option SafeType) : List String :=
  (if result.any bound.method.returnsOwned then
    ["/// Returns a retained object owned by the caller."] else [])
  ++ (if bound.method.attrs.consumesSelf then ["/// Consumes the receiver."] else [])
  ++ (bound.params.zip bound.method.params).filterMap fun (name, p) =>
      if p.isConsumed then some ("/// Consumes `" ++ name ++ "`.") else none

namespace Scope

/-! ## §4. The safe trait. -/

/-- The safe spellings of a method's parameters, with their names. -/
def safeParams (s : Scope) (current : String) (bound : BoundMethod) :
    Except Failure (List (String × SafeType)) :=
  collect (fun (name, p) => (s.safe current p.type).map (name, ·))
    (bound.params.zip bound.method.params)

/-- The safe spelling of a method's result. -/
def safeResult (s : Scope) (current : String) (m : Method) : Except Failure (Option SafeType) :=
  if m.returnsVoid then .ok none else (s.safe current m.result).map some

/-- The safe function of a method, which calls that of `rawTrait`. -/
def safeFunction (s : Scope) (current rawTrait : String) (bound : BoundMethod) :
    Except Failure String := do
  let m := bound.method
  let params ← s.safeParams current bound
  let result ← s.safeResult current m
  let args := (if m.isInstance then ["self"] else []) ++ params.map fun (name, t) => t.toRaw name
  let call := "<Self as " ++ rawTrait ++ ">::" ++ bound.name ++ "(" ++ ", ".intercalate args ++ ")"
  let needsSize := params.any (·.2.isSelf) || result.any SafeType.isSelf
  let demand : SelfBound :=
    if !m.isInstance then .classObject else if needsSize then .sized else .nothing
  let docs := bound.docLines result
  return (if docs.isEmpty then "" else joinLines docs ++ "\n")
    ++ functionItem ("fn " ++ bound.name)
      (m.selfParam ++ params.map fun (name, t) => name ++ ": " ++ t.rust)
      (match result with
        | some t => " -> " ++ t.rust
        | none => "")
      demand
      ("unsafe \x7b " ++ (match result with
        | some t => t.fromRaw call
        | none => call) ++ " \x7d")

/-- The safe trait of a container. -/
def safeTrait (s : Scope) (current : String) (c : Container) (methods : List BoundMethod) :
    Except Failure String := do
  let supertraits := c.rawTraitName :: c.bases.map (·.pathFrom current)
  return traitItem c.traitName (" + ".intercalate supertraits)
    (← collect (s.safeFunction current c.rawTraitName) methods)

end Scope

/-! ## §5. Containers. -/

/-- The type of an interface: a pointer to one of its objects. -/
def wrapper (name : String) : String :=
  paragraphs
    [joinLines [pointerAttributes, "pub struct " ++ name ++ "(ObjCObjectPointer);"],
     enclosed ("impl ObjCObject for " ++ name) (paragraphs
       ["    fn ptr(&self) -> ObjCObjectPointer \x7b\n        self.0\n    \x7d",
        joinLines
          ["    fn from_ptr(ptr: ObjCObjectPointer) -> Self \x7b",
           "        assert!(!ptr.is_null(), \"null pointer passed to " ++ name
             ++ "::from_ptr\");",
           "        " ++ name ++ "(ptr)",
           "    \x7d"]]),
     enclosed ("impl ObjCClass for " ++ name) (joinLines
       ["    fn class_ptr() -> ObjCObjectPointer \x7b",
        "        ObjCObjectPointer(*classes::" ++ name
          ++ " as *const objc::runtime::Class as *mut objc::runtime::Object)",
        "    \x7d"])]

/-- The implementations of a container's traits by the type `target`. -/
def implLines (current target : String) (c : Container) : List String :=
  c.impls.map fun t => "impl " ++ t.pathFrom current ++ " for " ++ target ++ " \x7b\x7d"

namespace Scope

/-- The type that implements the traits of a container; none does for a
protocol. -/
def implTarget? (s : Scope) (current : String) (c : Container) :
    Except Failure (Option String) :=
  match c.kind with
  | .interface => .ok (some (Ident.escape c.decl.name))
  | .category => (s.qualify (Ident.escape c.decl.name) c.decl current).map some
  | .protocol => .ok none

/-- All that is written for a container in module `current`. -/
def containerItem (s : Scope) (current : String) (selectors : SelectorTable) (c : Container) :
    Except Failure String := do
  let methods := bindMethods c.methods
  let raw ← s.rawTrait current selectors c methods
  let safe ← s.safeTrait current c methods
  let target ← s.implTarget? current c
  let impls := (target.map (implLines current · c)).getD []
  return paragraphs ([raw, safe]
    ++ (if c.kind = .interface then [wrapper (Ident.escape c.decl.name)] else [])
    ++ (if impls.isEmpty then [] else [joinLines impls]))

end Scope

end ObjcBindings
