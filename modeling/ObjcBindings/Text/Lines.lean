/-
  ObjcBindings.Text.Lines
  ────────────────────────────────
  **LINES OF A TEXT.**

  A line ends at a line feed; one carriage return before it belongs to the
  line end.  A text that ends with a line feed has no empty last line.

      lines       — the lines, without their ends
      indent      — every line that is not empty moved right
      padRight    — a text filled with spaces to a column
-/

namespace ObjcBindings.Text

/-! ## §1. Splitting. -/

/-- The pieces between line feeds; there is always at least one. -/
def pieces : List Char → List (List Char)
  | [] => [[]]
  | c :: cs =>
      if c = '\n' then [] :: pieces cs
      else match pieces cs with
        | [] => [[c]]
        | p :: ps => (c :: p) :: ps

/-- A piece without the carriage return at its end. -/
def dropReturn (piece : List Char) : List Char :=
  if piece.getLast? = some '\r' then piece.dropLast else piece

/-- The lines of a text.  Only a piece that a line feed ends loses its carriage
return, and the piece after the last line feed counts only if it is not
empty. -/
def lines (text : String) : List String :=
  match (pieces text.toList).reverse with
  | [] => []
  | last :: before =>
      let ended := before.reverse.map fun p => String.ofList (dropReturn p)
      if last.isEmpty then ended else ended ++ [String.ofList last]

/-! ## §2. Joining. -/

/-- Lines joined by line feeds, without one at the end. -/
def joinLines (ls : List String) : String :=
  "\n".intercalate ls

/-- Every line that is not empty moved right by four spaces. -/
def indent (text : String) : String :=
  joinLines ((lines text).map fun line => if line.isEmpty then "" else "    " ++ line)

/-- The text filled with spaces on the right up to `width` characters. -/
def padRight (width : Nat) (text : String) : String :=
  text ++ String.ofList (List.replicate (width - text.length) ' ')

end ObjcBindings.Text
