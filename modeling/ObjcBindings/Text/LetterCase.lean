/-
  ObjcBindings.Text.LetterCase
  ────────────────────────────────
  **LOWER CASE OF A TEXT.**

  Every character is sent to its lower-case form.  Two characters are special:

      İ   — becomes two characters, `i` and a combining dot
      Σ   — becomes `ς` at the end of a word and `σ` elsewhere

  The end of a word is judged by the cased letters around the sigma, looking
  through case-ignorable characters in both directions.
-/
import ObjcBindings.Text.LetterCase.Table

namespace ObjcBindings.Text

/-! ## §1. Table look-up. -/

/-- The code point lies in one of the ranges. -/
def inRanges (ranges : List (Nat × Nat)) (n : Nat) : Bool :=
  ranges.any fun (lo, hi) => lo ≤ n && n ≤ hi

/-- The image of a code point under a table of runs, if a run holds it. -/
def runImage? (runs : List (Nat × Nat × Nat × Nat)) (n : Nat) : Option Nat :=
  runs.findSome? fun (lo, hi, step, image) =>
    if lo ≤ n && n ≤ hi && (n - lo) % step == 0 then some (image + (n - lo)) else none

namespace LetterCase

/-! ## §2. Single characters. -/

/-- The one-character lower-case form; a character without one is its own. -/
def lowerChar (c : Char) : Char :=
  match runImage? lowerRuns c.toNat with
  | some n => Char.ofNat n
  | none => c

/-- A cased letter that a context does not look through. -/
def isCased (c : Char) : Bool :=
  inRanges casedRanges c.toNat

/-- A character that a cased context looks through. -/
def isIgnorable (c : Char) : Bool :=
  inRanges ignorableRanges c.toNat

/-! ## §3. The sigma at the end of a word. -/

/-- The first character that is not ignorable is a cased letter. -/
def meetsCased (cs : List Char) : Bool :=
  match cs.dropWhile isIgnorable with
  | [] => false
  | c :: _ => isCased c

/-- A sigma between `before` (nearest first) and `after` ends a word. -/
def endsWord (before after : List Char) : Bool :=
  meetsCased before && !meetsCased after

/-- Lower case of one character in its context. -/
def lowerAt (before : List Char) (c : Char) (after : List Char) : List Char :=
  if c = 'Σ' then [if endsWord before after then 'ς' else 'σ']
  else if c = 'İ' then ['i', '\u0307']
  else [lowerChar c]

/-- Lower case of the rest of a text whose earlier characters, nearest first,
are `before`. -/
def lowerFrom (before : List Char) : List Char → List Char
  | [] => []
  | c :: after => lowerAt before c after ++ lowerFrom (c :: before) after

end LetterCase

/-- Lower case of a text. -/
def toLower (s : String) : String :=
  String.ofList (LetterCase.lowerFrom [] s.toList)

/-- Lower case of the ASCII letters of a text; all else stays. -/
def asciiLower (s : String) : String :=
  String.ofList (s.toList.map Char.toLower)

end ObjcBindings.Text
