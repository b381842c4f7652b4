/-
  ObjcBindings.Text.Utf8
  ────────────────────────────────
  **TEXT FROM BYTES.**

      decode?       — the text of a well-formed byte sequence
      firstBreak?   — where a byte sequence is not well-formed
      decodeLossy   — the text of any bytes, a replacement character standing
                      for every longest run that begins a character but does
                      not end it, and for every byte that begins none
-/

namespace ObjcBindings.Text.Utf8

/-- The number of tail bytes that a first byte owes, with the bounds of the
first of them and the bits it contributes. -/
def head? (b : Nat) : Option (Nat × Nat × Nat × Nat) :=
  if b < 0x80 then some (0, 0x80, 0xbf, b)
  else if 0xc2 ≤ b && b ≤ 0xdf then some (1, 0x80, 0xbf, b - 0xc0)
  else if b = 0xe0 then some (2, 0xa0, 0xbf, 0)
  else if b = 0xed then some (2, 0x80, 0x9f, 0xd)
  else if 0xe1 ≤ b && b ≤ 0xef then some (2, 0x80, 0xbf, b - 0xe0)
  else if b = 0xf0 then some (3, 0x90, 0xbf, 0)
  else if 0xf1 ≤ b && b ≤ 0xf3 then some (3, 0x80, 0xbf, b - 0xf0)
  else if b = 0xf4 then some (3, 0x80, 0x8f, 4)
  else none

/-- The tail of a character: its code point, or `none` if it breaks off, and
the rest. -/
def readTail : Nat → Nat → Nat → Nat → List UInt8 → Option Nat × List UInt8
  | 0, _, _, code, rest => (some code, rest)
  | _ + 1, _, _, _, [] => (none, [])
  | owed + 1, lo, hi, code, b :: rest =>
      if lo ≤ b.toNat && b.toNat ≤ hi then
        readTail owed 0x80 0xbf (code * 64 + (b.toNat - 0x80)) rest
      else (none, b :: rest)

theorem length_readTail (owed lo hi code : Nat) (bs : List UInt8) :
    (readTail owed lo hi code bs).2.length ≤ bs.length := by
  induction owed generalizing lo hi code bs with
  | zero => simp [readTail]
  | succ n ih =>
    cases bs with
    | nil => simp [readTail]
    | cons b rest =>
      simp only [readTail]
      split
      · exact Nat.le_succ_of_le (ih _ _ _ rest)
      · simp

/-- The characters of a byte sequence, `none` where there is none. -/
def chars (bytes : List UInt8) : List (Option Char) :=
  match bytes with
  | [] => []
  | b :: rest =>
      match head? b.toNat with
      | none => none :: chars rest
      | some (owed, lo, hi, code) =>
          let tail := readTail owed lo hi code rest
          tail.1.map Char.ofNat :: chars tail.2
termination_by bytes.length
decreasing_by
  · simp
  · exact Nat.lt_succ_of_le (length_readTail owed lo hi code rest)

/-- The text of a well-formed byte sequence. -/
def decode? (bytes : List UInt8) : Option String :=
  ((chars bytes).mapM id).map String.ofList

/-- The text of any bytes. -/
def decodeLossy (bytes : List UInt8) : String :=
  String.ofList ((chars bytes).map (·.getD '\ufffd'))

/-- Where a byte sequence stops being a text. -/
inductive Break where
  /-- The bytes there begin no character. -/
  | invalid (index length : Nat)
  /-- The bytes end inside a character. -/
  | incomplete (index : Nat)
  deriving DecidableEq, Repr

/-- The first break in bytes that start at `index`. -/
def breakFrom (index : Nat) (bytes : List UInt8) : Option Break :=
  match bytes with
  | [] => none
  | b :: rest =>
      match head? b.toNat with
      | none => some (.invalid index 1)
      | some (owed, lo, hi, code) =>
          let tail := readTail owed lo hi code rest
          let taken := 1 + (rest.length - tail.2.length)
          match tail.1 with
          | some _ => breakFrom (index + taken) tail.2
          | none => some (if tail.2.isEmpty then .incomplete index else .invalid index taken)
termination_by bytes.length
decreasing_by
  exact Nat.lt_succ_of_le (length_readTail owed lo hi code rest)

/-- The first break in a byte sequence. -/
def firstBreak? (bytes : List UInt8) : Option Break :=
  breakFrom 0 bytes

/-- What is said about a break. -/
def Break.message : Break → String
  | .invalid index length =>
      "invalid utf-8 sequence of " ++ toString length ++ " bytes from index " ++ toString index
  | .incomplete index => "incomplete utf-8 byte sequence from index " ++ toString index

/-- The bytes of a text. -/
def encode (text : String) : List UInt8 :=
  text.toUTF8.toList

end ObjcBindings.Text.Utf8
