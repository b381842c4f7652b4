/-
  ObjcBindings.Bindings.Prelude
  ────────────────────────────────
  **WHAT EVERY MODULE STARTS WITH.**

  The core module declares the types and functions that all bindings use; the
  other modules import them from there.

      moduleLints    — the lints that generated names trip
      coreImports    — what the other modules import
      coreItems      — what the core module declares
-/
import ObjcBindings.Bindings.Code

namespace ObjcBindings

open Text

/-! ## §1. Heads of modules. -/

/-- Lints that generated names trip. -/
def moduleLints : String :=
  "#![allow(non_camel_case_types, non_snake_case, non_upper_case_globals, dead_code, " ++
  "unused_imports, clippy::all)]"

/-- What a module other than the core module imports. -/
def coreImports : String :=
  "use super::core::\x7bsend_message, ObjCClass, ObjCClassPointer, ObjCObject, " ++
  "ObjCObjectPointer\x7d;"

/-- The attributes of a type that is nothing but a pointer. -/
def pointerAttributes : String :=
  joinLines ["#[repr(transparent)]", "#[derive(Debug, Copy, Clone, PartialEq, Eq)]"]

/-! ## §2. The core module. -/

/-- The two kinds of pointers. -/
def pointerTypes : List String :=
  [joinLines [pointerAttributes,
     "pub struct ObjCObjectPointer(pub *mut objc::runtime::Object);"],
   block "impl ObjCObjectPointer" (paragraphs
     [block "pub fn null() -> Self" "ObjCObjectPointer(std::ptr::null_mut())",
      block "pub fn is_null(&self) -> bool" "self.0.is_null()"]),
   joinLines [pointerAttributes,
     "pub struct ObjCClassPointer(pub ObjCObjectPointer);"]]

/-- The trait of everything that wraps an object pointer, and its
implementation by the pointers themselves. -/
def objectTrait : List String :=
  [joinLines ["/// Implemented by every type that wraps an Objective-C object pointer.",
     block "pub trait ObjCObject" (paragraphs
       ["fn ptr(&self) -> ObjCObjectPointer;",
        joinLines ["fn from_ptr(ptr: ObjCObjectPointer) -> Self", "where", "    Self: Sized;"]])],
   block "impl ObjCObject for ObjCObjectPointer" (paragraphs
     [block "fn ptr(&self) -> ObjCObjectPointer" "*self",
      block "fn from_ptr(ptr: ObjCObjectPointer) -> Self" "ptr"]),
   block "impl ObjCObject for ObjCClassPointer" (paragraphs
     [block "fn ptr(&self) -> ObjCObjectPointer" "self.0",
      block "fn from_ptr(ptr: ObjCObjectPointer) -> Self" "ObjCClassPointer(ptr)"])]

/-- The trait of everything that has class methods, and look-up of classes. -/
def classTrait : List String :=
  [joinLines ["/// Receiver for class methods.",
     block "pub trait ObjCClass" "fn class_ptr() -> ObjCObjectPointer;"],
   block "pub fn class_named(name: &str) -> &'static objc::runtime::Class"
     (block "match objc::runtime::Class::get(name)" (joinLines
       ["Some(class) => class,",
        "None => panic!(\"Objective-C class \x7b\x7d is not registered with the runtime\", name),"]))]

/-- The function that every raw method calls. -/
def messageSend : String :=
  joinLines
    ["pub unsafe fn send_message<A, R>(receiver: ObjCObjectPointer, sel: objc::runtime::Sel, args: A) -> R",
     "where",
     "    A: objc::MessageArguments,",
     "    R: std::any::Any,",
     "\x7b",
     indent (block
       "match objc::__send_message(receiver.0 as *const objc::runtime::Object, sel, args)"
       (joinLines ["Ok(result) => result,", "Err(err) => panic!(\"\x7b:?\x7d\", err),"])),
     "\x7d"]

/-- What the core module declares. -/
def coreItems : String :=
  paragraphs (pointerTypes ++ objectTrait ++ classTrait ++ [messageSend])

end ObjcBindings
