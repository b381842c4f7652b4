/-
  ObjcBindings.Schema.Read
  ────────────────────────────────
  **READING A DUMP.**

  A dump is the JSON text of one translation unit.  The declarations are
  decoded before the kind of the root is looked at.
-/
import ObjcBindings.Failure
import ObjcBindings.Schema.Decode
import ObjcBindings.Text.Json.Reader
import ObjcBindings.Text.Utf8

namespace ObjcBindings

open Text

namespace TranslationUnit

/-- The unit of a JSON document. -/
def ofDocument (d : Document) : Except Failure TranslationUnit :=
  match Document.decode decodeRoot d with
  | .error fault => .error (.json fault)
  | .ok (kind, children) =>
      if kind = "TranslationUnit" then .ok ⟨children⟩ else .error (.notTranslationUnit kind)

/-- The unit of a text. -/
def read (text : String) : Except Failure TranslationUnit :=
  ofDocument (Json.read text)

/-- The unit of the bytes that `path` holds. -/
def readBytes (path : String) (bytes : List UInt8) : Except Failure TranslationUnit :=
  match Utf8.decode? bytes with
  | some text => read text
  | none => .error (.unreadable path "stream did not contain valid UTF-8")

end TranslationUnit

/-- The type of a text. -/
def TypeExpr.read (text : String) : Except Failure TypeExpr :=
  match Document.decode decodeType (Json.read text) with
  | .error fault => .error (.json fault)
  | .ok type => .ok type

end ObjcBindings
