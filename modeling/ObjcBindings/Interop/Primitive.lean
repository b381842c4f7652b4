/-
  ObjcBindings.Interop.Primitive
  ────────────────────────────────
  **PRIMITIVE TYPES.**

  The front end writes primitive types by name, from a closed list.  Most have
  a Rust type with the same representation; for the others no stable one
  exists.
-/
import ObjcBindings.Failure
import ObjcBindings.Symbol.Suggestion

namespace ObjcBindings

/-- A primitive type. -/
inductive Primitive where
  | void | bool
  | charU | uChar | wCharU | char16 | char32
  | uShort | uInt | uLong | uLongLong | uInt128
  | charS | sChar | wCharS
  | short | int | long | longLong | int128
  | float | double | longDouble | float16 | float128
  | objcId | objcClass | objcSel
  /-- What the front end writes for a type it has no name for. -/
  | unknown
  deriving DecidableEq, Repr

namespace Primitive

/-- Every primitive type with the name the front end gives it. -/
def names : List (String × Primitive) :=
  [("Void", .void), ("Bool", .bool), ("Char_U", .charU), ("UChar", .uChar),
   ("WChar_U", .wCharU), ("Char16", .char16), ("Char32", .char32), ("UShort", .uShort),
   ("UInt", .uInt), ("ULong", .uLong), ("ULongLong", .uLongLong), ("UInt128", .uInt128),
   ("Char_S", .charS), ("SChar", .sChar), ("WChar_S", .wCharS), ("Short", .short),
   ("Int", .int), ("Long", .long), ("LongLong", .longLong), ("Int128", .int128),
   ("Float", .float), ("Double", .double), ("LongDouble", .longDouble),
   ("Float16", .float16), ("Float128", .float128), ("ObjCId", .objcId),
   ("ObjCClass", .objcClass), ("ObjCSel", .objcSel), ("unknown", .unknown)]

/-- The primitive type of a name. -/
def ofName (name : String) : Except Failure Primitive :=
  match names.lookup name with
  | some p => .ok p
  | none => .error (.unknownPrimitive name (Suggestion.best? name (names.map Prod.fst) 2))

/-- The Rust type with the same representation. -/
def rustName? : Primitive → Option String
  | .void => some "libc::c_void"
  | .bool => some "bool"
  | .charU | .charS => some "libc::c_char"
  | .uChar => some "libc::c_uchar"
  | .sChar => some "libc::c_schar"
  | .wCharU | .wCharS => some "libc::wchar_t"
  | .char16 => some "u16"
  | .char32 => some "u32"
  | .uShort => some "libc::c_ushort"
  | .uInt => some "libc::c_uint"
  | .uLong => some "libc::c_ulong"
  | .uLongLong => some "libc::c_ulonglong"
  | .short => some "libc::c_short"
  | .int => some "libc::c_int"
  | .long => some "libc::c_long"
  | .longLong => some "libc::c_longlong"
  | .float => some "libc::c_float"
  | .double => some "libc::c_double"
  | .uInt128 | .int128 | .longDouble | .float16 | .float128 | .objcId | .objcClass | .objcSel
  | .unknown => none

end Primitive

end ObjcBindings
