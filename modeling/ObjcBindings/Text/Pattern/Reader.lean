/-
  ObjcBindings.Text.Pattern.Reader
  ────────────────────────────────
  **READING REGULAR EXPRESSIONS.**

  The reader goes through the text once, with the open groups on a stack.
  Look-around and back-references are refused, and so are unbalanced
  parentheses, a repetition of nothing, reversed ranges and unknown escapes.

      readEscape   — what follows a backslash
      readClass    — what follows an opening bracket
      readRepeat   — the bounds of a counted repetition
      readGroup    — what follows an opening parenthesis
      Regex.read?  — a whole expression
-/
import ObjcBindings.Text.Pattern

namespace ObjcBindings.Text.Pattern

/-! ## §1. Escapes. -/

/-- What an escape stands for. -/
inductive Escaped where
  | char (c : Char)
  | set (s : CharSet)
  | edge (p : Pattern)

/-- The value of a hexadecimal digit. -/
def hexDigit? (c : Char) : Option Nat :=
  if '0' ≤ c && c ≤ '9' then some (c.toNat - 48)
  else if 'a' ≤ c && c ≤ 'f' then some (c.toNat - 87)
  else if 'A' ≤ c && c ≤ 'F' then some (c.toNat - 55)
  else none

/-- The character with the code point that hexadecimal digits write. -/
def hexChar? (digits : List Char) : Option Char :=
  if digits.isEmpty then none
  else match digits.mapM hexDigit? with
    | none => none
    | some ds =>
        let n := ds.foldl (fun n d => n * 16 + d) 0
        if n.isValidChar then some (Char.ofNat n) else none

/-- Digits between braces, or exactly `count` of them. -/
def readHex (count : Nat) (cs : List Char) : Option (Char × List Char) :=
  match cs with
  | '\x7b' :: rest =>
      match rest.dropWhile (· ≠ '\x7d') with
      | _ :: rest' => (hexChar? (rest.takeWhile (· ≠ '\x7d'))).map (·, rest')
      | [] => none
  | _ =>
      if cs.length < count then none
      else (hexChar? (cs.take count)).map (·, cs.drop count)

/-- A character that an escape leaves as it is: ASCII and neither a letter nor
a digit. -/
def isPlainEscape (c : Char) : Bool :=
  c.toNat < 0x80 && !c.isAlphanum && c ≠ '<' && c ≠ '>'

/-- What follows a backslash. -/
def readEscape (cs : List Char) : Option (Escaped × List Char) :=
  match cs with
  | [] => none
  | 'd' :: rest => some (.set .digit, rest)
  | 'D' :: rest => some (.set (.compl .digit), rest)
  | 's' :: rest => some (.set .space, rest)
  | 'S' :: rest => some (.set (.compl .space), rest)
  | 'w' :: rest => some (.set .word, rest)
  | 'W' :: rest => some (.set (.compl .word), rest)
  | 'A' :: rest => some (.edge .start, rest)
  | 'z' :: rest => some (.edge .finish, rest)
  | 'b' :: rest => some (.edge (.wordEdge false), rest)
  | 'B' :: rest => some (.edge (.wordEdge true), rest)
  | 'a' :: rest => some (.char '\x07', rest)
  | 'f' :: rest => some (.char '\x0c', rest)
  | 't' :: rest => some (.char '\t', rest)
  | 'n' :: rest => some (.char '\n', rest)
  | 'r' :: rest => some (.char '\r', rest)
  | 'v' :: rest => some (.char '\x0b', rest)
  | 'x' :: rest => (readHex 2 rest).map fun (c, r) => (.char c, r)
  | 'u' :: rest => (readHex 4 rest).map fun (c, r) => (.char c, r)
  | 'U' :: rest => (readHex 8 rest).map fun (c, r) => (.char c, r)
  | c :: rest => if isPlainEscape c then some (.char c, rest) else none

/-! ## §2. Classes. -/

/-- The named classes of ASCII characters. -/
def namedClass? (name : String) : Option CharSet :=
  let lower := CharSet.range 'a' 'z'
  let upper := CharSet.range 'A' 'Z'
  let numeral := CharSet.range '0' '9'
  let alpha := CharSet.union lower upper
  match name with
  | "alnum" => some (.union alpha numeral)
  | "alpha" => some alpha
  | "ascii" => some (.range '\x00' '\x7f')
  | "blank" => some (.union (.one ' ') (.one '\t'))
  | "cntrl" => some (.union (.range '\x00' '\x1f') (.one '\x7f'))
  | "digit" => some numeral
  | "graph" => some (.range '!' '~')
  | "lower" => some lower
  | "print" => some (.range ' ' '~')
  | "punct" => some (.inter (.range '!' '~') (.compl (.union alpha numeral)))
  | "space" => some (.union (.range '\t' '\r') (.one ' '))
  | "upper" => some upper
  | "word" => some (.union (.union alpha numeral) (.one '_'))
  | "xdigit" => some (.union numeral (.union (.range 'a' 'f') (.range 'A' 'F')))
  | _ => none

/-- A named class after its bracket and colon. -/
def readNamedClass (cs : List Char) : Option (CharSet × List Char) :=
  let (negated, body) := match cs with
    | '^' :: r => (true, r)
    | r => (false, r)
  match body.dropWhile Char.isAlpha with
  | ':' :: ']' :: rest =>
      (namedClass? (String.ofList (body.takeWhile Char.isAlpha))).map fun s =>
        (if negated then .compl s else s, rest)
  | _ => none

/-- One item of a class: a character, or a set that no range may begin with. -/
def readClassItem (cs : List Char) : Option ((Char ⊕ CharSet) × List Char) :=
  match cs with
  | [] => none
  | '\\' :: rest =>
      match readEscape rest with
      | some (.char c, rest') => some (.inl c, rest')
      | some (.set s, rest') => some (.inr s, rest')
      | _ => none
  | c :: rest => some (.inl c, rest)

/-- One item or one range of a class. -/
def readClassRange (cs : List Char) : Option (CharSet × List Char) :=
  match readClassItem cs with
  | none => none
  | some (item, rest) =>
      let whole := match item with
        | .inl c => CharSet.one c
        | .inr s => s
      match rest with
      | '-' :: next :: tail =>
          if next = ']' || next = '-' then some (whole, rest)
          else match item, readClassItem (next :: tail) with
            | .inl lo, some (.inl hi, rest') =>
                if lo ≤ hi then some (.range lo hi, rest') else none
            | _, _ => none
      | _ => some (whole, rest)

/-- How the set read so far is combined with the items that follow. -/
inductive SetOp where
  | inter
  | diff
  | symDiff

/-- Combine two sets. -/
def SetOp.apply : SetOp → CharSet → CharSet → CharSet
  | .inter, a, b => .inter a b
  | .diff, a, b => .inter a (.compl b)
  | .symDiff, a, b => .inter (.union a b) (.compl (.inter a b))

/-- A class whose bracket is still open. -/
structure OpenClass where
  negated : Bool
  /-- The sets before the last operator, and the operator. -/
  left : Option (CharSet × SetOp)
  /-- The items since then. -/
  items : CharSet

/-- The set of all that was read of a class. -/
def OpenClass.current (c : OpenClass) : CharSet :=
  match c.left with
  | none => c.items
  | some (left, op) => op.apply left c.items

/-- The set of a class that ends here. -/
def OpenClass.close (caseless : Bool) (c : OpenClass) : CharSet :=
  let s := if caseless then .caseless c.current else c.current
  if c.negated then .compl s else s

/-- The start of a class after its bracket: a caret, then hyphens and a
closing bracket that stand for themselves. -/
def openClass (cs : List Char) : OpenClass × List Char :=
  let (negated, body) := match cs with
    | '^' :: r => (true, r)
    | r => (false, r)
  let hyphens := body.takeWhile (· = '-')
  let rest := body.dropWhile (· = '-')
  if hyphens.isEmpty then
    match rest with
    | ']' :: r => (⟨negated, none, .one ']'⟩, r)
    | r => (⟨negated, none, .none⟩, r)
  else (⟨negated, none, .one '-'⟩, rest)

/-- The rest of a class; `outer` are the classes around it.  Every step takes
a character, so `fuel` is their number. -/
def readClassFrom (caseless : Bool) : Nat → OpenClass → List OpenClass → List Char →
    Option (CharSet × List Char)
  | 0, _, _, _ => none
  | fuel + 1, here, outer, cs =>
      let operator (op : SetOp) (rest : List Char) :=
        readClassFrom caseless fuel
          { here with left := some (here.current, op), items := .none } outer rest
      match cs with
      | [] => none
      | ']' :: rest =>
          let s := here.close caseless
          match outer with
          | [] => some (s, rest)
          | around :: further =>
              readClassFrom caseless fuel
                { around with items := .union around.items s } further rest
      | '[' :: rest =>
          let named := match rest with
            | ':' :: r => readNamedClass r
            | _ => none
          match named with
          | some (s, rest') =>
              readClassFrom caseless fuel { here with items := .union here.items s } outer rest'
          | none =>
              let (inner, rest') := openClass rest
              readClassFrom caseless fuel inner (here :: outer) rest'
      | '&' :: '&' :: rest => operator .inter rest
      | '-' :: '-' :: rest => operator .diff rest
      | '~' :: '~' :: rest => operator .symDiff rest
      | _ =>
          match readClassRange cs with
          | none => none
          | some (s, rest) =>
              readClassFrom caseless fuel { here with items := .union here.items s } outer rest

/-- What follows an opening bracket. -/
def readClass (caseless : Bool) (cs : List Char) : Option (CharSet × List Char) :=
  let (first, rest) := openClass cs
  readClassFrom caseless (cs.length + 1) first [] rest

/-! ## §3. Repetitions. -/

/-- A decimal number below 2^32 at the front. -/
def readCount (cs : List Char) : Option (Nat × List Char) :=
  let ds := cs.takeWhile Char.isDigit
  let n := ds.foldl (fun n c => n * 10 + (c.toNat - 48)) 0
  if ds.isEmpty || n ≥ UInt32.size then none else some (n, cs.dropWhile Char.isDigit)

/-- The bounds of a counted repetition after its brace. -/
def readRepeat (cs : List Char) : Option ((Nat × Option Nat) × List Char) :=
  match readCount cs with
  | some (least, '\x7d' :: rest) => some ((least, some least), rest)
  | some (least, ',' :: '\x7d' :: rest) => some ((least, none), rest)
  | some (least, ',' :: rest) =>
      match readCount rest with
      | some (most, '\x7d' :: rest') =>
          if least ≤ most then some ((least, some most), rest') else none
      | _ => none
  | _ => none

/-! ## §4. Groups and flags. -/

/-- Switches that hold from where they are set to the end of the group. -/
structure Flags where
  caseless : Bool := false
  multiLine : Bool := false
  dotAll : Bool := false
  /-- Repetitions are lazy unless marked. -/
  lazy : Bool := false

/-- Switches set and cleared between a question mark and the end of the flags.
`seen` holds the letters so far, `value` what a letter sets. -/
def readFlags (flags : Flags) (seen : List Char) (value : Bool) :
    List Char → Option (Flags × Bool × List Char)
  | [] => none
  | c :: rest =>
      if c = ')' then if seen.isEmpty || seen.head? = some '-' then none else some (flags, false, rest)
      else if c = ':' then if seen.head? = some '-' then none else some (flags, true, rest)
      else if c ∈ seen then none
      else if c = '-' then readFlags flags (c :: seen) false rest
      else if c = 'i' then readFlags { flags with caseless := value } (c :: seen) value rest
      else if c = 'm' then readFlags { flags with multiLine := value } (c :: seen) value rest
      else if c = 's' then readFlags { flags with dotAll := value } (c :: seen) value rest
      else if c = 'U' then readFlags { flags with lazy := value } (c :: seen) value rest
      else if c = 'u' && value then readFlags flags (c :: seen) value rest
      else none

/-- What an opening parenthesis begins. -/
inductive GroupHead where
  /-- A group that is remembered, perhaps under a name. -/
  | capture (name : Option String)
  /-- A group that is not, with its flags. -/
  | plain (flags : Flags)
  /-- Only flags for what follows. -/
  | flags (flags : Flags)

/-- The name of a group after its angle bracket. -/
def readName (cs : List Char) : Option (String × List Char) :=
  let name := cs.takeWhile (· ≠ '>')
  match cs.dropWhile (· ≠ '>'), name with
  | _ :: rest, c :: more =>
      let first := c = '_' || (CharSet.word.contains c && !CharSet.digit.contains c)
      let others := more.all fun d =>
        CharSet.word.contains d || d = '.' || d = '[' || d = ']'
      if first && others then some (String.ofList name, rest) else none
  | _, _ => none

/-- What follows an opening parenthesis. -/
def readGroup (flags : Flags) (cs : List Char) : Option (GroupHead × List Char) :=
  match cs with
  | '?' :: 'P' :: '<' :: rest =>
      (readName rest).map fun (n, r) => (.capture (some n), r)
  | '?' :: '<' :: rest =>
      match rest with
      | '=' :: _ | '!' :: _ => none
      | _ => (readName rest).map fun (n, r) => (.capture (some n), r)
  | '?' :: rest =>
      (readFlags flags [] true rest).map fun (f, isGroup, r) =>
        (if isGroup then .plain f else .flags f, r)
  | _ => some (.capture none, cs)

/-! ## §5. Whole expressions. -/

/-- An expression or group whose end has not been reached. -/
structure Level where
  /-- The finished alternatives, last first. -/
  branches : List Pattern := []
  /-- The items of the current alternative, last first; `none` stands for
  flags. -/
  items : List (Option Pattern) := []
  flags : Flags := {}
  /-- The number of the group, if it is remembered. -/
  index : Option Nat := none

/-- The finished alternatives and the current one. -/
def Level.pattern (l : Level) : Pattern :=
  choice ((concat (l.items.reverse.filterMap id) :: l.branches).reverse)

/-- The pattern of a group that ends here. -/
def Level.close (l : Level) : Pattern :=
  match l.index with
  | some i => .group i l.pattern
  | none => l.pattern

/-- Add an item to the current alternative. -/
def Level.push (l : Level) (p : Pattern) : Level :=
  { l with items := some p :: l.items }

/-- Repeat the last item. -/
def Level.repeatLast (l : Level) (least : Nat) (most : Option Nat) (marked : Bool) :
    Option Level :=
  match l.items with
  | some p :: items =>
      some { l with items := some (.rep p least most (l.flags.lazy == marked)) :: items }
  | _ => none

/-- The reader between two items. -/
structure ReadState where
  here : Level := {}
  outer : List Level := []
  groups : Nat := 0
  names : List String := []

/-- A question mark after a repetition marks it. -/
def takeMark : List Char → Bool × List Char
  | '?' :: rest => (true, rest)
  | rest => (false, rest)

/-- A set as an item, under the current flags. -/
def Level.pushSet (l : Level) (s : CharSet) : Level :=
  l.push (.one (if l.flags.caseless then .caseless s else s))

/-- The item that begins with `c`. -/
def readItem (st : ReadState) (c : Char) (rest : List Char) :
    Option (ReadState × List Char) :=
  let here := st.here
  let add (l : Level) (rest : List Char) := some ({ st with here := l }, rest)
  let again (least : Nat) (most : Option Nat) (rest : List Char) :=
    let (marked, rest') := takeMark rest
    (here.repeatLast least most marked).map fun l => ({ st with here := l }, rest')
  match c with
  | '(' =>
      match readGroup here.flags rest with
      | none => none
      | some (.flags f, rest') =>
          add { here with flags := f, items := none :: here.items } rest'
      | some (.plain f, rest') =>
          some ({ st with here := { flags := f }, outer := here :: st.outer }, rest')
      | some (.capture name, rest') =>
          let names := name.toList
          if names.any (· ∈ st.names) then none
          else
            let index := st.groups + 1
            some ({ here := { flags := here.flags, index := some index },
                    outer := here :: st.outer, groups := index,
                    names := names ++ st.names }, rest')
  | ')' =>
      match st.outer with
      | [] => none
      | around :: outer =>
          some ({ st with here := around.push here.close, outer := outer }, rest)
  | '|' =>
      add { here with
        branches := concat (here.items.reverse.filterMap id) :: here.branches
        items := [] } rest
  | '*' => again 0 none rest
  | '+' => again 1 none rest
  | '?' => again 0 (some 1) rest
  | '\x7b' =>
      match readRepeat rest with
      | some ((least, most), rest') => again least most rest'
      | none => none
  | '[' =>
      match readClass here.flags.caseless rest with
      | some (s, rest') => add (here.push (.one s)) rest'
      | none => none
  | '\\' =>
      match readEscape rest with
      | some (.char e, rest') => add (here.pushSet (.one e)) rest'
      | some (.set s, rest') => add (here.push (.one s)) rest'
      | some (.edge p, rest') => add (here.push p) rest'
      | none => none
  | '.' =>
      add (here.push (.one (if here.flags.dotAll then .all else .compl (.one '\n')))) rest
  | '^' => add (here.push (if here.flags.multiLine then .lineStart else .start)) rest
  | '$' => add (here.push (if here.flags.multiLine then .lineFinish else .finish)) rest
  | _ => add (here.pushSet (.one c)) rest

/-- Read items to the end of the text. -/
def readItems (st : ReadState) (cs : List Char) : Option ReadState :=
  match cs with
  | [] => some st
  | c :: rest =>
      match readItem st c rest with
      | none => none
      | some (st', rest') =>
          if rest'.length ≤ rest.length then readItems st' rest' else none
termination_by cs.length

end Pattern

/-- A regular expression and the number of its remembered groups. -/
structure Regex where
  pattern : Pattern
  groups : Nat

/-- Read a regular expression. -/
def Regex.read? (text : String) : Option Regex :=
  match Pattern.readItems {} text.toList with
  | some ⟨here, [], groups, _⟩ => some ⟨here.pattern, groups⟩
  | _ => none

end ObjcBindings.Text
