/-
  ObjcBindings.Text.Ident
  ────────────────────────────────
  **IDENTIFIERS OF THE GENERATED RUST CODE.**

  Objective-C names become Rust names here:

      escape            — a name that is a keyword is made usable
      ofSelector        — a selector with its colons turned into underscores
      moduleName        — a framework or directory name as a module name
      stripUnderscores  — a tag name without its leading underscores
      isAnonymous       — a tag without a usable spelling
      ofUsr             — a name for a declaration that has none
-/
import ObjcBindings.Text.Substring

namespace ObjcBindings.Text.Ident

/-! ## §1. Keywords. -/

/-- Keywords that become usable as raw identifiers. -/
def keywords : List String :=
  ["abstract", "as", "async", "await", "become", "box", "break", "const", "continue", "do",
   "dyn", "else", "enum", "extern", "false", "final", "fn", "for", "gen", "if", "impl", "in",
   "let", "loop", "macro", "match", "mod", "move", "mut", "override", "priv", "pub", "ref",
   "return", "static", "struct", "trait", "true", "try", "type", "typeof", "unsafe", "unsized",
   "use", "virtual", "where", "while", "yield"]

/-- Keywords that cannot be raw identifiers. -/
def pathKeywords : List String :=
  ["self", "Self", "super", "crate", "_"]

/-- A name that is a keyword gets an underscore at its end, if it cannot be a
raw identifier, and otherwise the mark of a raw identifier. -/
def escape (name : String) : String :=
  if name ∈ pathKeywords then name ++ "_"
  else if name ∈ keywords then "r#" ++ name
  else name

/-! ## §2. Names derived from other spellings. -/

/-- Every colon of a selector becomes an underscore. -/
def ofSelector (selector : String) : String :=
  String.ofList (selector.toList.map fun c => if c = ':' then '_' else c)

/-- The character of a module name that stands for `c`. -/
def moduleChar (c : Char) : Char :=
  if c.isAlphanum then c.toLower else '_'

/-- Lower case, every character that is no ASCII letter or digit an underscore,
and an underscore in front of a digit or of nothing. -/
def moduleName (name : String) : String :=
  let body := name.toList.map moduleChar
  match body with
  | [] => "_"
  | c :: _ => String.ofList (if c.isDigit then '_' :: body else body)

/-- The name without leading underscores. -/
def stripUnderscores (name : String) : String :=
  String.ofList (name.toList.dropWhile (· = '_'))

/-- A record or enum without a usable spelling. -/
def isAnonymous (name : String) : Bool :=
  name.isEmpty || containsText name "(anonymous" || containsText name "(unnamed"

/-- Letters and digits stay; every run of other characters becomes one
underscore. -/
def squeeze : List Char → List Char
  | [] => []
  | c :: cs =>
      if c.isAlphanum then c :: squeeze cs
      else match squeeze cs with
        | [] => ['_']
        | d :: ds => if d = '_' then d :: ds else '_' :: d :: ds

/-- A name made of the letters and digits of a USR. -/
def ofUsr (usr : String) : String :=
  "Anon_" ++ String.ofList
    (dropEndWhile (· = '_') ((squeeze usr.toList).dropWhile (· = '_')))

end ObjcBindings.Text.Ident
