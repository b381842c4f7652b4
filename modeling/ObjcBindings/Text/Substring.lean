/-
  ObjcBindings.Text.Substring
  ────────────────────────────────
  **WHERE ONE TEXT OCCURS IN ANOTHER, AND BLANK ENDS.**

      occursIn   — does a text occur inside another one
      trim       — a text without the blank characters at its ends

  Both work on lists of characters, so that a statement about them is a
  statement about list prefixes and suffixes.
-/

namespace ObjcBindings.Text

/-! ## §1. Occurrences. -/

/-- `needle` occurs in the text as consecutive characters.  The empty text
occurs everywhere. -/
def occursIn (needle : List Char) : List Char → Bool
  | [] => needle.isEmpty
  | c :: cs => needle.isPrefixOf (c :: cs) || occursIn needle cs

/-- `needle` occurs in `text`. -/
def containsText (text needle : String) : Bool :=
  occursIn needle.toList text.toList

/-! ## §2. Blank characters. -/

/-- The white space of the character standard: the ASCII controls from tab to
carriage return, the space, and the spaces and separators beyond ASCII. -/
def isBlank (c : Char) : Bool :=
  let n := c.toNat
  (0x09 ≤ n && n ≤ 0x0d) || n == 0x20 || n == 0x85 || n == 0xa0 || n == 0x1680
    || (0x2000 ≤ n && n ≤ 0x200a) || n == 0x2028 || n == 0x2029 || n == 0x202f
    || n == 0x205f || n == 0x3000

/-- Drop the elements at the end for which the test holds. -/
def dropEndWhile {α : Type} (test : α → Bool) (xs : List α) : List α :=
  (xs.reverse.dropWhile test).reverse

/-- The text without blank characters at either end. -/
def trim (s : String) : String :=
  String.ofList (dropEndWhile isBlank (s.toList.dropWhile isBlank))

end ObjcBindings.Text
