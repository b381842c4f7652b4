/-
  ObjcBindings.Text.Toml
  ────────────────────────────────
  **TABLES OF SETTINGS.**

  A TOML document is a table that headers and dotted keys build up piece by
  piece.  Only texts, arrays and tables are kept: settings hold nothing else.
  How a table came about decides who may still add to it:

      inline    — written in braces, and complete
      header    — opened by a header of its own
      implied   — passed on the way to another header, may still be opened
      dotted    — made by a dotted key, other dotted keys may add to it

  `sections` says what a document states, `ofSections` what it means.
-/

namespace ObjcBindings.Text

/-! ## §1. Values. -/

/-- How a table came about. -/
inductive TableOrigin where
  | inline
  | header
  | implied
  | dotted
  deriving DecidableEq, Repr

/-- A value. -/
inductive Toml where
  | text (value : String)
  | array (items : List Toml)
  | table (origin : TableOrigin) (entries : List (String × Toml))
  /-- The tables under one repeated header, in order. -/
  | tables (items : List (List (String × Toml)))
  deriving Inhabited

namespace Toml

/-- The entries of a table, each key once. -/
abbrev Entries := List (String × Toml)

/-- Put a value under a key, in the place of an old one. -/
def Entries.put (key : String) (value : Toml) : Entries → Entries
  | [] => [(key, value)]
  | (k, v) :: rest => if k = key then (key, value) :: rest else (k, v) :: Entries.put key value rest

/-! ## §2. Keys. -/

/-- Add a value under a dotted key.  The key must be new, and the tables on
the way to it new or made by dotted keys. -/
def Entries.add : List String → Toml → Entries → Option Entries
  | [], _, _ => none
  | [key], value, entries =>
      match entries.lookup key with
      | none => some (entries ++ [(key, value)])
      | some _ => none
  | key :: next :: path, value, entries =>
      match entries.lookup key with
      | none =>
          (Entries.add (next :: path) value []).map fun inner =>
            entries ++ [(key, .table .dotted inner)]
      | some (.table .dotted inner) =>
          (Entries.add (next :: path) value inner).map fun inner =>
            Entries.put key (.table .dotted inner) entries
      | some _ => none

/-- Add values in order. -/
def Entries.addAll : List (List String × Toml) → Entries → Option Entries
  | [], entries => some entries
  | (path, value) :: rest, entries => (Entries.add path value entries).bind (Entries.addAll rest)

/-! ## §3. Headers. -/

/-- What a header opens: a table, or one more table of a list. -/
inductive HeaderKind where
  | single
  | repeated
  deriving DecidableEq, Repr

/-- A header and the keys below it. -/
structure TableSection where
  kind : HeaderKind
  path : List String
  keys : List (List String × Toml)

/-- The value at the end of a header's path after the section, given the value
before it. -/
def TableSection.value (s : TableSection) (old : Option Toml) : Option Toml :=
  match s.kind, old with
  | .single, none => (Entries.addAll s.keys []).map (.table .header)
  | .single, some (.table .implied inner) => (Entries.addAll s.keys inner).map (.table .header)
  | .repeated, none => (Entries.addAll s.keys []).map fun t => .tables [t]
  | .repeated, some (.tables ts) => (Entries.addAll s.keys []).map fun t => .tables (ts ++ [t])
  | _, _ => none

/-- Change the value at the end of a header's path.  The way leads through
tables that are not complete and through the last table of a list. -/
def Entries.update (change : Option Toml → Option Toml) : List String → Entries → Option Entries
  | [], _ => none
  | [key], entries =>
      (change (entries.lookup key)).map fun value => Entries.put key value entries
  | key :: next :: path, entries =>
      match entries.lookup key with
      | none =>
          (Entries.update change (next :: path) []).map fun inner =>
            Entries.put key (.table .implied inner) entries
      | some (.table origin inner) =>
          if origin = .inline then none
          else (Entries.update change (next :: path) inner).map fun inner =>
            Entries.put key (.table origin inner) entries
      | some (.tables ts) =>
          match ts.getLast? with
          | none => none
          | some last =>
              (Entries.update change (next :: path) last).map fun last =>
                Entries.put key (.tables (ts.dropLast ++ [last])) entries
      | some _ => none

/-- Add sections in order. -/
def Entries.addSections : List TableSection → Entries → Option Entries
  | [], entries => some entries
  | s :: rest, entries =>
      (Entries.update s.value s.path entries).bind (Entries.addSections rest)

/-- The table of a document: the keys above the first header, and the
sections. -/
def ofSections (keys : List (List String × Toml)) (sections : List TableSection) :
    Option Entries :=
  (Entries.addAll keys []).bind (Entries.addSections sections)

end Toml

end ObjcBindings.Text
