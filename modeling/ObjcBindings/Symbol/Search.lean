/-
  ObjcBindings.Symbol.Search
  ────────────────────────────────
  **SEARCHING DECLARATIONS BY NAME.**

  The named declarations at the top level of a unit are compared with a query:
  equal names first, then names equal up to letter case, then names that
  contain the query, then names within three edits.  Within one rank the order
  of the unit is kept.
-/
import ObjcBindings.Schema.Decl
import ObjcBindings.Text.EditDistance
import ObjcBindings.Text.LetterCase
import ObjcBindings.Text.Substring

namespace ObjcBindings

open Text

/-- How a name answers a query. -/
inductive NameMatch where
  | exact
  | caseInsensitive
  | contains
  /-- Within this many edits. -/
  | fuzzy (distance : Nat)
  deriving DecidableEq, Repr

namespace NameMatch

/-- The place in the order of answers. -/
def rank : NameMatch → Nat
  | .exact => 0
  | .caseInsensitive => 1
  | .contains => 2
  | .fuzzy distance => 3 + distance

/-- How `name` answers `query`, if it does. -/
def ofName? (query name : String) : Option NameMatch :=
  let lowName := toLower name
  let lowQuery := toLower query
  if name = query then some .exact
  else if lowName = lowQuery then some .caseInsensitive
  else if containsText lowName lowQuery then some .contains
  else
    let d := editDistance name query
    if d ≤ 3 then some (.fuzzy d) else none

end NameMatch

/-- A declaration that answers a query. -/
structure SearchResult where
  decl : Decl
  found : NameMatch

/-- The answers to a query, best first. -/
def TranslationUnit.search (unit : TranslationUnit) (query : String) : List SearchResult :=
  let answers := unit.children.filterMap fun d =>
    if d.name.isEmpty then none else (NameMatch.ofName? query d.name).map (⟨d, ·⟩)
  answers.mergeSort fun a b => a.found.rank ≤ b.found.rank

end ObjcBindings
