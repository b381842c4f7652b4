/-
  ObjcBindings.Text.Json.Printer
  ────────────────────────────────
  **WRITING JSON TEXT.**

      compact   — without any white space
      pretty    — one item or field a line, two spaces a level

  Inside a string only the quote, the backslash and the control characters are
  escaped, the common ones by a letter and the others by four digits.
-/
import ObjcBindings.Text.Json

namespace ObjcBindings.Text.Json

/-! ## §1. Strings. -/

/-- The lower-case hexadecimal digit of a number below sixteen. -/
def hexDigit (n : Nat) : Char :=
  if n < 10 then Char.ofNat (48 + n) else Char.ofNat (87 + n)

/-- A character as it stands inside a string. -/
def escapeChar (c : Char) : List Char :=
  if c = '"' then ['\\', '"']
  else if c = '\\' then ['\\', '\\']
  else if c = '\x08' then ['\\', 'b']
  else if c = '\x0c' then ['\\', 'f']
  else if c = '\n' then ['\\', 'n']
  else if c = '\r' then ['\\', 'r']
  else if c = '\t' then ['\\', 't']
  else if c.toNat < 0x20 then
    ['\\', 'u', '0', '0', hexDigit (c.toNat / 16), hexDigit (c.toNat % 16)]
  else [c]

/-- A text between quotes. -/
def quote (s : String) : String :=
  String.ofList ('"' :: s.toList.flatMap escapeChar ++ ['"'])

/-! ## §2. Values. -/

/-- The text of a scalar; a value that is none is written as `null`. -/
def scalar : Json → String
  | .bool true => "true"
  | .bool false => "false"
  | .natural n => toString n
  | .number literal => literal
  | .str s => quote s
  | _ => "null"

mutual

/-- The value without white space. -/
def compact : Json → String
  | .arr items => "[" ++ ",".intercalate (compactItems items) ++ "]"
  | .obj fields => "\x7b" ++ ",".intercalate (compactFields fields) ++ "\x7d"
  | value => scalar value

/-- Every item without white space. -/
def compactItems : List Json → List String
  | [] => []
  | item :: items => compact item :: compactItems items

/-- Every field without white space. -/
def compactFields : List (String × Json) → List String
  | [] => []
  | (name, value) :: fields => (quote name ++ ":" ++ compact value) :: compactFields fields

end

/-- `level` steps of two spaces. -/
def margin (level : Nat) : String :=
  String.ofList (List.replicate (2 * level) ' ')

/-- Parts on lines of their own between two brackets. -/
def block (opening closing : String) (level : Nat) (parts : List String) : String :=
  if parts.isEmpty then opening ++ closing
  else opening ++ "\n" ++ ",\n".intercalate (parts.map (margin (level + 1) ++ ·))
    ++ "\n" ++ margin level ++ closing

mutual

/-- The value with one item or field a line, `level` steps in. -/
def prettyAt : Nat → Json → String
  | level, .arr items => block "[" "]" level (prettyItems (level + 1) items)
  | level, .obj fields => block "\x7b" "\x7d" level (prettyFields (level + 1) fields)
  | _, value => scalar value

/-- Every item, `level` steps in. -/
def prettyItems : Nat → List Json → List String
  | _, [] => []
  | level, item :: items => prettyAt level item :: prettyItems level items

/-- Every field, `level` steps in. -/
def prettyFields : Nat → List (String × Json) → List String
  | _, [] => []
  | level, (name, value) :: fields =>
      (quote name ++ ": " ++ prettyAt level value) :: prettyFields level fields

end

/-- The value with one item or field a line. -/
def pretty (value : Json) : String :=
  prettyAt 0 value

end ObjcBindings.Text.Json
