/-
  ObjcBindings.Text.Toml.Reader
  ────────────────────────────────
  **READING TOML.**

  A text is cut into tokens, the tokens are read as headers and keys with
  values, and these build the table of the document.  White space and comments
  end with the tokens; line ends stay, because a header or key ends with its
  line.

      tokens   — the tokens of a text
      read?    — the table of a text

  Numbers, dates and truth values are no settings, so a document with one of
  them is refused like one that is no TOML.
-/
import ObjcBindings.Text.Toml

namespace ObjcBindings.Text.Toml

/-! ## §1. Quoted texts. -/

/-- A character that may stand for itself: a tab, or no control character. -/
def isPlain (c : Char) : Bool :=
  c == '\t' || (0x20 ≤ c.toNat && c.toNat != 0x7f)

/-- A space or a tab. -/
def isSpace (c : Char) : Bool := c == ' ' || c == '\t'

/-- The text goes on with a line end. -/
def startsLine : List Char → Bool
  | '\n' :: _ => true
  | '\r' :: '\n' :: _ => true
  | _ => false

/-- The text without the line end that it starts with. -/
def dropLine : List Char → List Char
  | '\n' :: cs => cs
  | '\r' :: '\n' :: cs => cs
  | cs => cs

/-- How many times the text starts with `quote`, up to five times. -/
def quoteRun (quote : Char) (cs : List Char) : Nat :=
  min 5 (cs.takeWhile (· == quote)).length

/-- The character that a letter after a backslash stands for. -/
def shortEscape? : Char → Option Char
  | 'b' => some '\x08'
  | 't' => some '\t'
  | 'n' => some '\n'
  | 'f' => some '\x0c'
  | 'r' => some '\r'
  | '"' => some '"'
  | '\\' => some '\\'
  | _ => none

/-- The value of a hexadecimal digit. -/
def hexValue? (c : Char) : Option Nat :=
  if c.isDigit then some (c.toNat - '0'.toNat)
  else if 'a' ≤ c && c ≤ 'f' then some (c.toNat - 'a'.toNat + 10)
  else if 'A' ≤ c && c ≤ 'F' then some (c.toNat - 'A'.toNat + 10)
  else none

/-- The character of a number. -/
def scalar? (n : Nat) : Option Char :=
  if n < 0xd800 || (0xe000 ≤ n && n < 0x110000) then some (Char.ofNat n) else none

/-- A character in front of a text that is read with what follows it. -/
def pushed (c : Char) (rest : Option (List Char × List Char)) : Option (List Char × List Char) :=
  rest.map fun (cs, after) => (c :: cs, after)

/-- Where a reader of a quoted text is. -/
inductive QuoteState where
  | plain
  /-- After a backslash. -/
  | escape
  /-- Inside a number of which `left` more digits follow after the next. -/
  | number (left : Nat) (value : Nat)
  /-- Behind a backslash at the end of a line, before the next text. -/
  | blank
  deriving DecidableEq, Repr

/-- A text up to its closing quotes, and what follows them.  A long text is
closed by three quotes, before which one or two belong to the text, and may
have line ends. -/
def quoted (long : Bool) : QuoteState → List Char → Option (List Char × List Char)
  | _, [] => none
  | .escape, c :: cs =>
      match shortEscape? c with
      | some e => pushed e (quoted long .plain cs)
      | none =>
          if c = 'u' then quoted long (.number 3 0) cs
          else if c = 'U' then quoted long (.number 7 0) cs
          else if long && startsLine ((c :: cs).dropWhile isSpace) then quoted long .blank cs
          else none
  | .number left value, c :: cs =>
      match hexValue? c, left with
      | none, _ => none
      | some d, left + 1 => quoted long (.number left (16 * value + d)) cs
      | some d, 0 =>
          match scalar? (16 * value + d) with
          | none => none
          | some e => pushed e (quoted long .plain cs)
  | state, c :: cs =>
      if state = .blank && (isSpace c || startsLine (c :: cs)) then quoted long .blank cs
      else if c = '\\' then quoted long .escape cs
      else if c = '"' then
        if !long then some ([], cs)
        else
          let run := quoteRun '"' (c :: cs)
          if run < 3 then pushed c (quoted long .plain cs)
          else some (List.replicate (run - 3) '"', (c :: cs).drop run)
      else if long && c = '\n' then pushed c (quoted long .plain cs)
      else if long && startsLine (c :: cs) then quoted long .plain cs
      else if isPlain c then pushed c (quoted long .plain cs)
      else none

/-- A text without escapes up to its closing apostrophes, and what follows
them. -/
def literal (long : Bool) : List Char → Option (List Char × List Char)
  | [] => none
  | c :: cs =>
      if c = '\'' then
        if !long then some ([], cs)
        else
          let run := quoteRun '\'' (c :: cs)
          if run < 3 then pushed c (literal long cs)
          else some (List.replicate (run - 3) '\'', (c :: cs).drop run)
      else if long && c = '\n' then pushed c (literal long cs)
      else if long && startsLine (c :: cs) then literal long cs
      else if isPlain c then pushed c (literal long cs)
      else none

/-! ## §2. Tokens. -/

/-- A token.  A bracket is glued if it directly follows one of its kind. -/
inductive Token where
  | bare (word : String)
  | text (value : String)
  /-- A text in triple quotes, which can be a value but no key. -/
  | longText (value : String)
  | equals
  | dot
  | comma
  | bracket (glued : Bool)
  | endBracket (glued : Bool)
  | brace
  | endBrace
  | newline
  deriving DecidableEq, Repr

/-- A character of a key without quotes. -/
def isBare (c : Char) : Bool := c.isAlphanum || c == '_' || c == '-'

/-- The text that starts after the first quote, and what follows it. -/
def textToken (quote : Char) (cs : List Char) : Option (Token × List Char) :=
  let body (long : Bool) := if quote = '"' then quoted long .plain else literal long
  match cs with
  | a :: b :: rest =>
      if a = quote && b = quote then
        (body true (dropLine rest)).map fun (t, after) => (.longText (String.ofList t), after)
      else (body false cs).map fun (t, after) => (.text (String.ofList t), after)
  | _ => (body false cs).map fun (t, after) => (.text (String.ofList t), after)

/-- The token of a single character that follows `before`. -/
def markToken? (before c : Char) : Option Token :=
  match c with
  | '=' => some .equals
  | '.' => some .dot
  | ',' => some .comma
  | '[' => some (.bracket (before == '['))
  | ']' => some (.endBracket (before == ']'))
  | '\x7b' => some .brace
  | '\x7d' => some .endBrace
  | '\n' => some .newline
  | _ => none

/-- The tokens of a text that follows `before`, at most `bound` of them and of
the white space and comments between them. -/
def tokensFrom : Nat → Char → List Char → Option (List Token)
  | _, _, [] => some []
  | 0, _, _ :: _ => none
  | bound + 1, before, c :: cs =>
      if isSpace c || (c = '\r' && startsLine (c :: cs)) then tokensFrom bound c cs
      else if c = '#' then tokensFrom bound c (cs.dropWhile isPlain)
      else if isBare c then
        (tokensFrom bound c (cs.dropWhile isBare)).map
          (.bare (String.ofList (c :: cs.takeWhile isBare)) :: ·)
      else if c = '"' || c = '\'' then
        match textToken c cs with
        | none => none
        | some (token, after) => (tokensFrom bound c after).map (token :: ·)
      else match markToken? before c with
        | none => none
        | some token => (tokensFrom bound c cs).map (token :: ·)

/-- The tokens of a text.  Every token takes a character, so there are no more
of them than characters.  A byte order mark in front is left out. -/
def tokens (text : String) : Option (List Token) :=
  match text.toList with
  | [] => some []
  | c :: cs =>
      let body := if c.toNat = 0xfeff then cs else c :: cs
      tokensFrom body.length ' ' body

/-! ## §3. Keys and values. -/

/-- A dotted key, and what follows it. -/
def keyPath : List Token → Option (List String × List Token)
  | .bare w :: .dot :: ts | .text w :: .dot :: ts =>
      (keyPath ts).map fun (path, after) => (w :: path, after)
  | .bare w :: ts | .text w :: ts => some ([w], ts)
  | _ => none

/-- The tokens after line ends. -/
def dropNewlines (ts : List Token) : List Token :=
  ts.dropWhile (· == .newline)

mutual

/-- A value, and what follows it. -/
def value : Nat → List Token → Option (Toml × List Token)
  | _, .text s :: ts | _, .longText s :: ts => some (.text s, ts)
  | bound + 1, .bracket _ :: ts =>
      (items bound (dropNewlines ts)).map fun (vs, after) => (.array vs, after)
  | _, .brace :: .endBrace :: ts => some (.table .inline [], ts)
  | bound + 1, .brace :: ts =>
      match pairs bound ts with
      | none => none
      | some (keys, after) => (Entries.addAll keys []).map fun es => (.table .inline es, after)
  | _, _ => none

/-- The values of an array up to its closing bracket, and what follows it. -/
def items : Nat → List Token → Option (List Toml × List Token)
  | _, .endBracket _ :: ts => some ([], ts)
  | 0, _ => none
  | bound + 1, ts =>
      match value bound ts with
      | none => none
      | some (v, ts) =>
          match dropNewlines ts with
          | .comma :: ts =>
              (items bound (dropNewlines ts)).map fun (vs, after) => (v :: vs, after)
          | .endBracket _ :: ts => some ([v], ts)
          | _ => none

/-- The keys and values of a table in braces up to its end, and what follows
it. -/
def pairs : Nat → List Token → Option (List (List String × Toml) × List Token)
  | 0, _ => none
  | bound + 1, ts =>
      match keyPath ts with
      | some (path, .equals :: ts) =>
          match value bound ts with
          | some (v, .comma :: ts) =>
              (pairs bound ts).map fun (rest, after) => ((path, v) :: rest, after)
          | some (v, .endBrace :: ts) => some ([(path, v)], ts)
          | _ => none
      | _ => none

end

/-! ## §4. Documents. -/

/-- A line of a document. -/
inductive Statement where
  | header (kind : HeaderKind) (path : List String)
  | key (path : List String) (value : Toml)

/-- One header or key, and what follows it. -/
def statement (bound : Nat) : List Token → Option (Statement × List Token)
  | .bracket _ :: .bracket true :: ts =>
      match keyPath ts with
      | some (path, .endBracket _ :: .endBracket true :: ts) => some (.header .repeated path, ts)
      | _ => none
  | .bracket _ :: ts =>
      match keyPath ts with
      | some (path, .endBracket _ :: ts) => some (.header .single path, ts)
      | _ => none
  | ts =>
      match keyPath ts with
      | some (path, .equals :: ts) => (value bound ts).map fun (v, ts) => (.key path v, ts)
      | _ => none

/-- The headers and keys of a document, each on a line of its own. -/
def statements : Nat → List Token → Option (List Statement)
  | _, [] => some []
  | 0, _ :: _ => none
  | bound + 1, .newline :: ts => statements bound ts
  | bound + 1, ts =>
      match statement bound ts with
      | some (s, []) => some [s]
      | some (s, .newline :: ts) => (statements bound ts).map (s :: ·)
      | _ => none

/-- The keys before the first header, and the sections of the headers. -/
def sections : List Statement → List (List String × Toml) × List TableSection
  | [] => ([], [])
  | .key path v :: rest =>
      let (keys, found) := sections rest
      ((path, v) :: keys, found)
  | .header kind path :: rest =>
      let (keys, found) := sections rest
      ([], ⟨kind, path, keys⟩ :: found)

/-- The table of a document. -/
def read? (text : String) : Option Entries := do
  let ts ← tokens text
  let lines ← statements ts.length ts
  let (keys, found) := sections lines
  ofSections keys found

end ObjcBindings.Text.Toml
