/-
  ObjcBindings.Text.Json.Reader
  ────────────────────────────────
  **READING JSON TEXT.**

  The reader never fails: a text that is not JSON gives the value read so far
  with a cut at the first fault.  The grammar is strict — no comments, no
  trailing commas, no leading zeros, no control characters inside strings.

      readString   — a string after its opening quote
      readNumber   — a number
      step         — one token in one state of the machine
      run          — the machine: open containers on a stack

  A step that succeeds shortens the text, which is what the machine runs on.
-/
import ObjcBindings.Text.Json

namespace ObjcBindings.Text.Json

/-! ## §1. Strings. -/

/-- The value of a hexadecimal digit. -/
def hexValue? (c : Char) : Option Nat :=
  if '0' ≤ c && c ≤ '9' then some (c.toNat - 48)
  else if 'a' ≤ c && c ≤ 'f' then some (c.toNat - 87)
  else if 'A' ≤ c && c ≤ 'F' then some (c.toNat - 55)
  else none

/-- The value of four hexadecimal digits, and the rest.  The text is truncated
if fewer than four bytes are left. -/
def readHex4 (cs : List Char) : Except Fault (Nat × List Char) :=
  match cs with
  | a :: b :: c :: d :: rest =>
      match hexValue? a, hexValue? b, hexValue? c, hexValue? d with
      | some a, some b, some c, some d => .ok (((a * 16 + b) * 16 + c) * 16 + d, rest)
      | _, _, _, _ => .error .malformed
  | short =>
      if (String.ofList short).utf8ByteSize < 4 then .error .truncated else .error .malformed

/-- The code unit begins a surrogate pair. -/
def isHighSurrogate (n : Nat) : Bool := 0xd800 ≤ n && n ≤ 0xdbff

/-- The code unit ends a surrogate pair. -/
def isLowSurrogate (n : Nat) : Bool := 0xdc00 ≤ n && n ≤ 0xdfff

/-- The character of a single-letter escape. -/
def simpleEscape? : Char → Option Char
  | '"' => some '"'
  | '\\' => some '\\'
  | '/' => some '/'
  | 'b' => some '\x08'
  | 'f' => some '\x0c'
  | 'n' => some '\n'
  | 'r' => some '\r'
  | 't' => some '\t'
  | _ => none

/-- An escape after its backslash: its character, or `none` for half a
surrogate pair, and the rest. -/
def readEscape (cs : List Char) : Except Fault (Option Char × List Char) :=
  match cs with
  | [] => .error .truncated
  | 'u' :: body =>
      match readHex4 body with
      | .error fault => .error fault
      | .ok (unit, rest) =>
          if isHighSurrogate unit then
            match rest with
            | [] | ['\\'] => .error .truncated
            | '\\' :: 'u' :: low =>
                match readHex4 low with
                | .error fault => .error fault
                | .ok (unit', rest') =>
                    if isLowSurrogate unit' then
                      .ok (some (Char.ofNat
                        (0x10000 + (unit - 0xd800) * 0x400 + (unit' - 0xdc00))), rest')
                    else .ok (none, rest)
            | _ => .ok (none, rest)
          else if isLowSurrogate unit then .ok (none, rest)
          else .ok (some (Char.ofNat unit), rest)
  | c :: rest =>
      match simpleEscape? c with
      | some e => .ok (some e, rest)
      | none => .error .malformed

/-- The end of a string, its characters read so far being `acc` in reverse.
`paired` tells whether every surrogate met so far was part of a pair. -/
def readStringFrom (acc : List Char) (paired : Bool) (cs : List Char) :
    Except Fault (Option String × List Char) :=
  match cs with
  | [] => .error (if paired then .truncated else .malformed)
  | c :: rest =>
      if c = '"' then .ok (if paired then some (String.ofList acc.reverse) else none, rest)
      else if c = '\\' then
        match readEscape rest with
        | .error fault => .error fault
        | .ok (escaped, rest') =>
            if rest'.length ≤ rest.length then
              match escaped with
              | some e => readStringFrom (e :: acc) paired rest'
              | none => readStringFrom acc false rest'
            else .error .malformed
      else if c.toNat < 0x20 then .error .malformed
      else readStringFrom (c :: acc) paired rest
termination_by cs.length

/-- A string after its opening quote: its text, or `none` if a surrogate has
no partner, and the rest. -/
def readString (cs : List Char) : Except Fault (Option String × List Char) :=
  readStringFrom [] true cs

/-! ## §2. Numbers. -/

/-- Digits at the front, and the rest. -/
def spanDigits (cs : List Char) : List Char × List Char :=
  (cs.takeWhile Char.isDigit, cs.dropWhile Char.isDigit)

/-- The number that decimal digits write. -/
def digitsValue (ds : List Char) : Nat :=
  ds.foldl (fun n c => n * 10 + (c.toNat - 48)) 0

/-- At least one digit; a text that ends instead is truncated. -/
def readDigits (cs : List Char) : Except Fault (List Char × List Char) :=
  match spanDigits cs with
  | ([], []) => .error .truncated
  | ([], _ :: _) => .error .malformed
  | (ds, rest) => .ok (ds, rest)

/-- The integer part: a single zero, or digits that do not begin with one. -/
def readInteger (cs : List Char) : Except Fault (List Char × List Char) :=
  match readDigits cs with
  | .error fault => .error fault
  | .ok (ds, rest) =>
      if ds.head? = some '0' && ds.length > 1 then .error .malformed else .ok (ds, rest)

/-- The fraction, if there is one. -/
def readFraction (cs : List Char) : Except Fault (Option (List Char) × List Char) :=
  match cs with
  | '.' :: rest => (readDigits rest).map fun (ds, rest') => (some ds, rest')
  | _ => .ok (none, cs)

/-- The exponent, if there is one, with its sign. -/
def readExponent (cs : List Char) : Except Fault (Option (Bool × List Char) × List Char) :=
  match cs with
  | c :: rest =>
      if c = 'e' || c = 'E' then
        let (negative, body) := match rest with
          | '+' :: r => (false, r)
          | '-' :: r => (true, r)
          | r => (false, r)
        (readDigits body).map fun (ds, rest') => (some (negative, ds), rest')
      else .ok (none, cs)
  | [] => .ok (none, cs)

/-- The magnitude `digits * 10 ^ scale` rounds to infinity as a double: it is
at least the largest double plus half a unit in its last place. -/
def exceedsDouble (digits : Nat) (scale : Int) : Bool :=
  let bound := Nat.pow 2 1024 - Nat.pow 2 970
  if digits = 0 then false
  else if scale > 400 then true
  else if scale < 0 then
    if scale < -100000 then false else digits ≥ bound * Nat.pow 10 (-scale).toNat
  else digits * Nat.pow 10 scale.toNat ≥ bound

/-- A number and the rest of the text. -/
def readNumber (cs : List Char) : Except Fault (Json × List Char) := do
  let (negative, body) := match cs with
    | '-' :: r => (true, r)
    | r => (false, r)
  let (whole, rest) ← readInteger body
  let (fraction, rest) ← readFraction rest
  let (exponent, rest) ← readExponent rest
  let places : Int := (fraction.map List.length).getD 0
  let power : Int := match exponent with
    | some (true, ds) => -(digitsValue ds : Int)
    | some (false, ds) => digitsValue ds
    | none => 0
  let digits := digitsValue (whole ++ fraction.getD [])
  if exceedsDouble digits (power - places) then .ok (.unreadable, rest)
  else if !negative && fraction.isNone && exponent.isNone then .ok (.natural digits, rest)
  else .ok (.number (String.ofList (cs.take (cs.length - rest.length))), rest)

/-! ## §3. The machine. -/

/-- A container that is still open: the values before the one being read, last
first, and for an object the name of the field being read. -/
inductive Frame where
  | arr (before : List Json)
  | obj (before : List (String × Json)) (name : String)

/-- What the machine expects next. -/
inductive Expect where
  /-- A value. -/
  | value
  /-- A value or the end of an array that has just begun. -/
  | firstItem
  /-- The name of a field. -/
  | name (before : List (String × Json))
  /-- The name of a field or the end of an object that has just begun. -/
  | firstName
  /-- The colon after the name of a field. -/
  | colon (before : List (String × Json)) (name : String)
  /-- A comma or the end of the innermost container, after a value. -/
  | afterValue (value : Json)

/-- Put a value into the containers around it, closing them all. -/
def closeAll (value : Json) : List Frame → Json
  | [] => value
  | .arr before :: stack => closeAll (.arr (before.reverse ++ [value])) stack
  | .obj before name :: stack => closeAll (.obj (before.reverse ++ [(name, value)])) stack

/-- What one token leads to. -/
inductive Move where
  /-- Go on with the rest of the text. -/
  | next (expect : Expect) (stack : List Frame) (rest : List Char)
  /-- The text stops being JSON, while this much is open. -/
  | stop (fault : Fault) (stack : List Frame)

/-- White space between tokens. -/
def isSpace (c : Char) : Bool :=
  c = ' ' || c = '\n' || c = '\t' || c = '\r'

/-- A fixed word: truncated if the text ends inside it. -/
def readWord (word : List Char) (cs : List Char) : Except Fault (List Char) :=
  match word, cs with
  | [], rest => .ok rest
  | _ :: _, [] => .error .truncated
  | w :: ws, c :: rest => if w = c then readWord ws rest else .error .malformed

/-- A value that begins with `c`. -/
def stepValue (stack : List Frame) (c : Char) (rest : List Char) : Move :=
  let word (w : String) (value : Json) : Move :=
    match readWord w.toList (c :: rest) with
    | .ok rest' => .next (.afterValue value) stack rest'
    | .error fault => .stop fault stack
  if c = '[' then .next .firstItem (.arr [] :: stack) rest
  else if c = '\x7b' then .next .firstName stack rest
  else if c = '"' then
    match readString rest with
    | .ok (some s, rest') => .next (.afterValue (.str s)) stack rest'
    | .ok (none, rest') => .next (.afterValue .unreadable) stack rest'
    | .error fault => .stop fault stack
  else if c = '-' || c.isDigit then
    match readNumber (c :: rest) with
    | .ok (value, rest') => .next (.afterValue value) stack rest'
    | .error fault => .stop fault stack
  else if c = 'n' then word "null" .null
  else if c = 't' then word "true" (.bool true)
  else if c = 'f' then word "false" (.bool false)
  else .stop .malformed stack

/-- The name of a field that begins with `c`. -/
def stepName (before : List (String × Json)) (stack : List Frame) (c : Char)
    (rest : List Char) : Move :=
  if c = '"' then
    match readString rest with
    | .ok (some s, rest') => .next (.colon before s) stack rest'
    | .ok (none, _) => .stop .malformed (.obj before "" :: stack)
    | .error fault => .stop fault (.obj before "" :: stack)
  else .stop .malformed (.obj before "" :: stack)

/-- After `value` inside the innermost container. -/
def stepAfter (value : Json) (stack : List Frame) (c : Char) (rest : List Char) : Move :=
  match stack with
  | [] => .stop .malformed []
  | .arr before :: outer =>
      if c = ',' then .next .value (.arr (value :: before) :: outer) rest
      else if c = ']' then .next (.afterValue (.arr (value :: before).reverse)) outer rest
      else .stop .malformed (.arr (value :: before) :: outer)
  | .obj before name :: outer =>
      let before' := (name, value) :: before
      if c = ',' then .next (.name before') outer rest
      else if c = '\x7d' then .next (.afterValue (.obj before'.reverse)) outer rest
      else .stop .malformed (.obj before' "" :: outer)

/-- One token that begins with `c`. -/
def step (expect : Expect) (stack : List Frame) (c : Char) (rest : List Char) : Move :=
  match expect with
  | .value => stepValue stack c rest
  | .firstItem =>
      if c = ']' then .next (.afterValue (.arr [])) stack.tail rest
      else stepValue stack c rest
  | .name before => stepName before stack c rest
  | .firstName =>
      if c = '\x7d' then .next (.afterValue (.obj [])) stack rest
      else stepName [] stack c rest
  | .colon before name =>
      if c = ':' then .next .value (.obj before name :: stack) rest
      else .stop .malformed (.obj before name :: stack)
  | .afterValue value => stepAfter value stack c rest

/-- What a text that ends here leaves open. -/
def openAtEnd (expect : Expect) (stack : List Frame) : List Frame :=
  match expect with
  | .value | .firstItem => stack
  | .name before => .obj before "" :: stack
  | .firstName => .obj [] "" :: stack
  | .colon before name => .obj before name :: stack
  | .afterValue value =>
      match stack with
      | [] => []
      | .arr before :: outer => .arr (value :: before) :: outer
      | .obj before name :: outer => .obj ((name, value) :: before) "" :: outer

/-- Run the machine over the text. -/
def run (expect : Expect) (stack : List Frame) (cs : List Char) : Document :=
  match cs with
  | [] =>
      match expect, stack with
      | .afterValue value, [] => ⟨value, none⟩
      | _, _ => ⟨closeAll (.cut .truncated) (openAtEnd expect stack), none⟩
  | c :: rest =>
      if isSpace c then run expect stack rest
      else match expect, stack with
        | .afterValue value, [] => ⟨value, some .malformed⟩
        | _, _ =>
            match step expect stack c rest with
            | .stop fault stack' => ⟨closeAll (.cut fault) stack', none⟩
            | .next expect' stack' rest' =>
                if rest'.length ≤ rest.length then run expect' stack' rest'
                else ⟨closeAll (.cut .malformed) stack', none⟩
termination_by cs.length

/-- Read a whole text. -/
def read (text : String) : Document :=
  run .value [] text.toList

end ObjcBindings.Text.Json
