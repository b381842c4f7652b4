/-
  ObjcBindings.Text.EditDistance
  ────────────────────────────────
  **EDIT DISTANCE BETWEEN TWO TEXTS.**

  The least number of insertions, deletions and replacements of one character
  that turn one text into the other.  The table is computed row by row: the
  row for a prefix `p` of the first text holds, for every prefix `q` of the
  second text in order, the distance between `p` and `q`.
-/

namespace ObjcBindings.Text

/-- The rest of the next row: `left` is the entry just computed, `corner` the
entry above it, and `above` the entries of the previous row still to come. -/
def extendRow (c : Char) : List Char → Nat → Nat → List Nat → List Nat
  | y :: ys, left, corner, up :: above =>
      let here := min (min (up + 1) (left + 1)) (corner + if c = y then 0 else 1)
      left :: extendRow c ys here up above
  | _, left, _, _ => [left]

/-- The row for a prefix followed by `c`, from the row for the prefix. -/
def nextRow (target : List Char) (row : List Nat) (c : Char) : List Nat :=
  match row with
  | [] => []
  | corner :: above => extendRow c target (corner + 1) corner above

/-- The number of single-character edits between two texts. -/
def editDistance (source target : String) : Nat :=
  let start := List.range (target.length + 1)
  ((source.toList.foldl (nextRow target.toList) start).getLast?).getD 0

end ObjcBindings.Text
