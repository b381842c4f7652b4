/-
  ObjcBindings.Text.Json
  ────────────────────────────────
  **JSON VALUES, AND WHAT IS LEFT OF A TEXT THAT IS NOT JSON.**

  A value keeps the order of its fields and every repetition of a name.  Two
  constructors describe text that cannot be used as a value:

      unreadable   — a complete scalar without a value: a number beyond the
                     double range or a string with half a surrogate pair.
                     It may be skipped, not read.
      cut          — the place where the text stops being JSON, with the fault
                     found there.  Nothing follows it.

  A decoder that walks a value in the order of the text therefore meets its
  own mismatches and the faults of the text in the order of the text.
-/

namespace ObjcBindings.Text

/-! ## §1. Values. -/

/-- Why a text could not be decoded. -/
inductive Fault where
  /-- The text ends too early. -/
  | truncated
  /-- The text is not JSON, or nests too deep. -/
  | malformed
  /-- The text is JSON of the wrong shape. -/
  | mismatch
  deriving DecidableEq, Repr

/-- A JSON value, or what was read of one. -/
inductive Json where
  | null
  | bool (value : Bool)
  /-- A number written as digits alone. -/
  | natural (value : Nat)
  /-- Any other number in the double range, as it is written. -/
  | number (literal : String)
  | str (value : String)
  | arr (items : List Json)
  | obj (fields : List (String × Json))
  /-- A scalar that can be skipped but not read. -/
  | unreadable
  /-- The text stops being JSON here. -/
  | cut (fault : Fault)
  deriving Repr, Inhabited

namespace Json

/-! ## §2. Faults of a value. -/

mutual

/-- The first fault of a value that is skipped: only a cut is one. -/
def skipFault : Json → Option Fault
  | .cut fault => some fault
  | .arr items => skipFaultItems items
  | .obj fields => skipFaultFields fields
  | _ => none

/-- The first fault among skipped items. -/
def skipFaultItems : List Json → Option Fault
  | [] => none
  | item :: items => (skipFault item).or (skipFaultItems items)

/-- The first fault among skipped fields. -/
def skipFaultFields : List (String × Json) → Option Fault
  | [] => none
  | (_, value) :: fields => (skipFault value).or (skipFaultFields fields)

end

mutual

/-- The first fault of a value that is kept: a cut, an unreadable scalar, or
an array or object inside more than `limit` others. -/
def keepFault : Nat → Json → Option Fault
  | _, .cut fault => some fault
  | _, .unreadable => some .malformed
  | 0, .arr _ => some .malformed
  | 0, .obj _ => some .malformed
  | limit + 1, .arr items => keepFaultItems limit items
  | limit + 1, .obj fields => keepFaultFields limit fields
  | _, _ => none

/-- The first fault among kept items. -/
def keepFaultItems : Nat → List Json → Option Fault
  | _, [] => none
  | limit, item :: items => (keepFault limit item).or (keepFaultItems limit items)

/-- The first fault among kept fields. -/
def keepFaultFields : Nat → List (String × Json) → Option Fault
  | _, [] => none
  | limit, (_, value) :: fields => (keepFault limit value).or (keepFaultFields limit fields)

end

/-- Accept a value that is skipped. -/
def skip (value : Json) : Except Fault Unit :=
  match value.skipFault with
  | some fault => .error fault
  | none => .ok ()

/-- Accept a value that is kept and nests at most `limit` deep. -/
def keep (limit : Nat) (value : Json) : Except Fault Unit :=
  match value.keepFault limit with
  | some fault => .error fault
  | none => .ok ()

/-! ## §3. Nesting. -/

mutual

/-- The number of arrays and objects around the deepest scalar. -/
def depth : Json → Nat
  | .arr items => depthItems items + 1
  | .obj fields => depthFields fields + 1
  | _ => 0

/-- The depth of the deepest item. -/
def depthItems : List Json → Nat
  | [] => 0
  | item :: items => max (depth item) (depthItems items)

/-- The depth of the deepest field. -/
def depthFields : List (String × Json) → Nat
  | [] => 0
  | (_, value) :: fields => max (depth value) (depthFields fields)

end

end Json

/-- A whole text: its value, and the fault of anything after the value. -/
structure Document where
  root : Json
  trailing : Option Fault
  deriving Inhabited

end ObjcBindings.Text
