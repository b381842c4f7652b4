/-
  ObjcBindings.Text.Json.Shape
  ────────────────────────────────
  **READING A JSON VALUE AS DATA.**

  A record is an object with its fields in any order, or an array of its
  fields in their declared order.  A known field occurs at most once; unknown
  fields are ignored.

      asString, asBool, asNat   — scalars
      recordFields              — the fields of a record
      required, optional, …     — one field by its name
      scan                      — the fields in the order of the text
-/
import ObjcBindings.Text.Json

namespace ObjcBindings.Text.Json

/-! ## §1. Scalars. -/

/-- The fault of a value that is not what was asked for. -/
def wrong : Json → Fault
  | .cut fault => fault
  | .unreadable => .malformed
  | _ => .mismatch

/-- A string. -/
def asString : Json → Except Fault String
  | .str s => .ok s
  | other => .error other.wrong

/-- A truth value. -/
def asBool : Json → Except Fault Bool
  | .bool b => .ok b
  | other => .error other.wrong

/-- A number below `bound`, written as digits alone. -/
def asNat (bound : Nat) : Json → Except Fault Nat
  | .natural n => if n < bound then .ok n else .error .mismatch
  | other => .error other.wrong

/-- A number of 32 bits. -/
def asUInt32 (value : Json) : Except Fault UInt32 :=
  (asNat UInt32.size value).map Nat.toUInt32

/-- A number of 64 bits. -/
def asUInt64 (value : Json) : Except Fault UInt64 :=
  (asNat UInt64.size value).map Nat.toUInt64

/-- The name of a choice without data: a string, or an object with that one
name and nothing under it. -/
def asChoice : Json → Except Fault String
  | .str s => .ok s
  | .obj [(name, .null)] => .ok name
  | .obj [(name, .obj [])] => .ok name
  | other => .error other.wrong

/-! ## §2. Lists. -/

/-- Read every item in order. -/
def mapItems {α : Type} (read : Json → Except Fault α) : List Json → Except Fault (List α)
  | [] => .ok []
  | item :: items =>
      match read item with
      | .error fault => .error fault
      | .ok x => (mapItems read items).map (x :: ·)

/-- A list of things of one kind. -/
def asList {α : Type} (read : Json → Except Fault α) : Json → Except Fault (List α)
  | .arr items => mapItems read items
  | other => .error other.wrong

/-- A list of strings. -/
def asStrings : Json → Except Fault (List String) :=
  asList asString

/-- Nothing, written as `null`, or something. -/
def asOption {α : Type} (read : Json → Except Fault α) : Json → Except Fault (Option α)
  | .null => .ok none
  | other => (read other).map some

/-! ## §3. Records. -/

/-- The fields of a record with the declared names `names`.  `excess` is the
fault of an array with too many items. -/
def recordFields (excess : Fault) (names : List String) :
    Json → Except Fault (List (String × Json))
  | .obj fields => .ok fields
  | .arr items =>
      if items.length ≤ names.length then .ok (names.zip items) else .error excess
  | other => .error other.wrong

/-- The value of a field that occurs at most once. -/
def field? (fields : List (String × Json)) (name : String) : Except Fault (Option Json) :=
  match fields.filter (·.1 == name) with
  | [] => .ok none
  | [(_, value)] => .ok (some value)
  | _ => .error .mismatch

/-- A field that has to be there. -/
def required {α : Type} (fields : List (String × Json)) (name : String)
    (read : Json → Except Fault α) : Except Fault α :=
  match field? fields name with
  | .error fault => .error fault
  | .ok none => .error .mismatch
  | .ok (some value) => read value

/-- A field with a value for when it is absent. -/
def defaulted {α : Type} (fields : List (String × Json)) (name : String) (absent : α)
    (read : Json → Except Fault α) : Except Fault α :=
  match field? fields name with
  | .error fault => .error fault
  | .ok none => .ok absent
  | .ok (some value) => read value

/-- A field that may be absent or `null`. -/
def optional {α : Type} (fields : List (String × Json)) (name : String)
    (read : Json → Except Fault α) : Except Fault (Option α) :=
  defaulted fields name none (asOption read)

/-! ## §4. The order of the text. -/

/-- Walk the fields in the order of the text.  `known` gives the reader of a
known field, which may not be repeated; `other` accepts the rest. -/
def scan (known : String → Option (Json → Except Fault Unit))
    (other : Json → Except Fault Unit) (seen : List String) :
    List (String × Json) → Except Fault Unit
  | [] => .ok ()
  | (name, value) :: fields =>
      match known name with
      | none =>
          match other value with
          | .error fault => .error fault
          | .ok () => scan known other seen fields
      | some read =>
          if name ∈ seen then .error .mismatch
          else match read value with
            | .error fault => .error fault
            | .ok () => scan known other (name :: seen) fields

/-- The value of a reading is not needed. -/
def discard {α : Type} (read : Json → Except Fault α) (value : Json) : Except Fault Unit :=
  (read value).map fun _ => ()

end ObjcBindings.Text.Json
