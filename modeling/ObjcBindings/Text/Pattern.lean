/-
  ObjcBindings.Text.Pattern
  ────────────────────────────────
  **REGULAR EXPRESSIONS AND LEFTMOST MATCHES.**

  A pattern is tried at every place of a text from the left; the first place
  with a match wins, and there the first alternative that leads to a match.

      CharSet.contains   — sets of characters
      Pattern.run        — match at one place, then go on
      Pattern.search?    — the groups of the leftmost match

  The rounds of a bounded repetition are independent.  In an unbounded one every
  round after the first takes a character, so the characters left over bound the
  number of rounds.
-/
import ObjcBindings.Text.LetterCase
import ObjcBindings.Text.Pattern.Table
import ObjcBindings.Text.Substring

namespace ObjcBindings.Text

/-! ## §1. Sets of characters. -/

/-- A set of characters. -/
inductive CharSet where
  /-- The characters from `lo` to `hi`, both included. -/
  | range (lo hi : Char)
  /-- Word characters. -/
  | word
  /-- Decimal digits. -/
  | digit
  /-- White space. -/
  | space
  | union (a b : CharSet)
  | inter (a b : CharSet)
  | compl (a : CharSet)
  /-- The set together with the other letter cases of its members. -/
  | caseless (a : CharSet)
  deriving DecidableEq, Repr

namespace CharSet

/-- No character. -/
def none : CharSet := .range '\x01' '\x00'

/-- Every character. -/
def all : CharSet := .compl none

/-- One character. -/
def one (c : Char) : CharSet := .range c c

/-- The character that all letter cases of `c` fold to. -/
def foldChar (c : Char) : Char :=
  match runImage? Pattern.foldRuns c.toNat with
  | some n => Char.ofNat n
  | Option.none => c

/-- The characters that fold to `c`, apart from itself. -/
def unfoldChar (c : Char) : List Char :=
  Pattern.foldRuns.filterMap fun (lo, hi, step, image) =>
    let n := c.toNat
    if image ≤ n && lo + (n - image) ≤ hi && (n - image) % step == 0
    then some (Char.ofNat (lo + (n - image))) else Option.none

/-- The letter cases of a character. -/
def letterCases (c : Char) : List Char :=
  c :: foldChar c :: unfoldChar (foldChar c)

/-- Membership. -/
def contains : CharSet → Char → Bool
  | .range lo hi, c => lo ≤ c && c ≤ hi
  | .word, c => inRanges Pattern.wordRanges c.toNat
  | .digit, c => inRanges Pattern.digitRanges c.toNat
  | .space, c => isBlank c
  | .union a b, c => a.contains c || b.contains c
  | .inter a b, c => a.contains c && b.contains c
  | .compl a, c => !a.contains c
  | .caseless a, c => (letterCases c).any fun d => a.contains d

end CharSet

/-! ## §2. Patterns. -/

/-- A regular expression. -/
inductive Pattern where
  | empty
  /-- One character of a set. -/
  | one (set : CharSet)
  /-- The start of the text. -/
  | start
  /-- The end of the text. -/
  | finish
  /-- The start of a line. -/
  | lineStart
  /-- The end of a line. -/
  | lineFinish
  /-- A place between a word character and none, or (`inside`) any other. -/
  | wordEdge (inside : Bool)
  | seq (first second : Pattern)
  /-- The first alternative is preferred. -/
  | alt (first second : Pattern)
  /-- At least `least` and at most `most` rounds, as many as possible if
  `greedy` and as few as possible otherwise. -/
  | rep (body : Pattern) (least : Nat) (most : Option Nat) (greedy : Bool)
  /-- A group whose text is remembered under its number. -/
  | group (index : Nat) (body : Pattern)
  deriving DecidableEq, Repr

/-- A place in a text, with the groups remembered on the way there. -/
structure Place where
  /-- The characters before the place, nearest first. -/
  before : List Char
  after : List Char
  /-- The texts of groups, the latest first. -/
  groups : List (Nat × List Char)

namespace Place

/-- The nearest character on one side is a word character. -/
def touchesWord : List Char → Bool
  | [] => false
  | c :: _ => CharSet.word.contains c

/-- The place lies at one end of a word. -/
def atWordEdge (p : Place) : Bool :=
  touchesWord p.before != touchesWord p.after

/-- The characters between an earlier place and this one. -/
def since (p earlier : Place) : List Char :=
  earlier.after.take (earlier.after.length - p.after.length)

end Place

namespace Pattern

/-! ## §3. Matching. -/

/-- What to do at a place after a match so far. -/
abbrev Next (α : Type) := Place → Option α

/-- Go on if the test holds here. -/
def check {α : Type} (test : Place → Bool) (next : Next α) (p : Place) : Option α :=
  if test p then next p else Option.none

/-- Exactly `n` rounds. -/
def exactly {α : Type} (round : Next α → Next α) : Nat → Next α → Next α
  | 0, next => next
  | n + 1, next => round (exactly round n next)

/-- Go round or stop: what is preferred is tried first. -/
def roundOrStop {α : Type} (greedy : Bool) (round stop : Next α) (p : Place) : Option α :=
  if greedy then
    match round p with
    | some x => some x
    | Option.none => stop p
  else match stop p with
    | some x => some x
    | Option.none => round p

/-- At most `n` rounds. -/
def atMost {α : Type} (round : Next α → Next α) (greedy : Bool) : Nat → Next α → Next α
  | 0, next, p => next p
  | n + 1, next, p => roundOrStop greedy (round (atMost round greedy n next)) next p

/-- A round that takes a character, then what comes after such a round. -/
def takingRound {α : Type} (round : Next α → Next α) (later : Next α) (p : Place) : Option α :=
  round (fun q => if q.after.length < p.after.length then later q else Option.none) p

/-- Further rounds, each of which takes a character; `n` bounds their number. -/
def further {α : Type} (round : Next α → Next α) (greedy : Bool) : Nat → Next α → Next α
  | 0, next, p => next p
  | n + 1, next, p =>
      roundOrStop greedy (takingRound round (further round greedy n next)) next p

/-- One round, which may take no character, and further ones if it took some. -/
def loop {α : Type} (round : Next α → Next α) (greedy : Bool) (next : Next α) (p : Place) :
    Option α :=
  round (fun q =>
    if q.after.length < p.after.length then further round greedy q.after.length next q
    else next q) p

/-- At least `n` rounds, of which the last is the first one of a loop. -/
def atLeast {α : Type} (round : Next α → Next α) (greedy : Bool) : Nat → Next α → Next α
  | 0, next => roundOrStop greedy (loop round greedy next) next
  | n + 1, next => exactly round n (loop round greedy next)

/-- Match the pattern at a place, then do what is next. -/
def run {α : Type} : Pattern → Next α → Next α
  | .empty, next, p => next p
  | .one set, next, p =>
      match p.after with
      | [] => Option.none
      | c :: rest =>
          if set.contains c then next { p with before := c :: p.before, after := rest }
          else Option.none
  | .start, next, p => check (·.before.isEmpty) next p
  | .finish, next, p => check (·.after.isEmpty) next p
  | .lineStart, next, p =>
      check (fun q => q.before.isEmpty || q.before.head? == some '\n') next p
  | .lineFinish, next, p =>
      check (fun q => q.after.isEmpty || q.after.head? == some '\n') next p
  | .wordEdge inside, next, p => check (fun q => q.atWordEdge != inside) next p
  | .seq a b, next, p => a.run (b.run next) p
  | .alt a b, next, p =>
      match a.run next p with
      | some x => some x
      | Option.none => b.run next p
  | .rep body least (some most) greedy, next, p =>
      exactly body.run least (atMost body.run greedy (most - least) next) p
  | .rep body least Option.none greedy, next, p => atLeast body.run greedy least next p
  | .group index body, next, p =>
      body.run (fun q => next { q with groups := (index, q.since p) :: q.groups }) p

/-- Try every place from here on. -/
def searchFrom? (pattern : Pattern) (before : List Char) :
    List Char → Option (List (Nat × List Char))
  | [] => pattern.run (fun p => some p.groups) ⟨before, [], []⟩
  | c :: rest =>
      match pattern.run (fun p => some p.groups) ⟨before, c :: rest, []⟩ with
      | some groups => some groups
      | Option.none => searchFrom? pattern (c :: before) rest

/-- The groups of the leftmost match. -/
def search? (pattern : Pattern) (text : String) : Option (List (Nat × List Char)) :=
  searchFrom? pattern [] text.toList

/-! ## §4. Building patterns. -/

/-- One character. -/
def char (c : Char) : Pattern := .one (.one c)

/-- Patterns one after the other. -/
def concat : List Pattern → Pattern
  | [] => .empty
  | [p] => p
  | p :: ps => .seq p (concat ps)

/-- Patterns of which the first that leads to a match is taken. -/
def choice : List Pattern → Pattern
  | [] => .empty
  | [p] => p
  | p :: ps => .alt p (choice ps)

/-- A fixed text. -/
def literal (text : String) : Pattern :=
  concat (text.toList.map char)

/-- Any number of rounds, as many as possible. -/
def star (p : Pattern) : Pattern := .rep p 0 Option.none true

/-- At least one round, as many as possible. -/
def plus (p : Pattern) : Pattern := .rep p 1 Option.none true

end Pattern

end ObjcBindings.Text
