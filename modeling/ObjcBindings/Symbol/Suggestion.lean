/-
  ObjcBindings.Symbol.Suggestion
  ────────────────────────────────
  **NAMES CLOSE TO A GIVEN NAME.**

  A candidate is close if it is the name up to letter case (distance 0), if
  one contains the other up to letter case (distance 1), or if few edits lead
  from one to the other (distance: their number).  Suggestions are sorted by
  distance, then by candidate, so they do not depend on the candidates' order.
-/
import ObjcBindings.Text.EditDistance
import ObjcBindings.Text.LetterCase
import ObjcBindings.Text.Substring

namespace ObjcBindings

open Text

/-- A candidate and its distance from the name that was meant. -/
structure Suggestion where
  candidate : String
  distance : Nat
  deriving DecidableEq, Repr

namespace Suggestion

/-- Nearer candidates come first, and among equally near ones the smaller. -/
def le (a b : Suggestion) : Bool :=
  a.distance < b.distance || (a.distance == b.distance && a.candidate ≤ b.candidate)

/-- The distance of a candidate other than the name itself, if it is close. -/
def distance? (name candidate : String) (maxDistance : Nat) : Option Nat :=
  let lowName := toLower name
  let lowCandidate := toLower candidate
  if candidate = name then none
  else if lowCandidate = lowName then some 0
  else if !lowName.isEmpty
      && (containsText lowCandidate lowName || containsText lowName lowCandidate) then some 1
  else
    let d := editDistance name candidate
    if d ≤ maxDistance then some d else none

/-- The close candidates, nearest first. -/
def list (name : String) (candidates : List String) (maxDistance : Nat) : List Suggestion :=
  (candidates.filterMap fun c => (distance? name c maxDistance).map (⟨c, ·⟩)).mergeSort le

/-- The nearest candidate. -/
def best? (name : String) (candidates : List String) (maxDistance : Nat) : Option String :=
  (list name candidates maxDistance).head?.map Suggestion.candidate

end Suggestion

end ObjcBindings
