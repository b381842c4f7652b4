/-
  ObjcBindings.Proofs.RankedSuggestions
  ────────────────────────────────
  **SUGGESTIONS ARE THE CLOSE CANDIDATES, NEAREST FIRST.**

  A candidate other than the name itself is close for one of three reasons, and
  the first that applies gives its distance:

      0   — it is the name up to letter case
      1   — one occurs in the other up to letter case
      d   — the least number of edits that turn one into the other is `d`

  The order by distance and then by candidate leaves no two suggestions
  undecided, so the sorted list says nothing about the order in which the
  candidates came:

      distance?_eq_some_iff   — the three reasons, and their distances
      list_perm               — candidates in another order, the same list
      best?_eq_some_iff       — the best suggestion is the nearest candidate
      best?_congr             — same candidates, same best suggestion
-/
import ObjcBindings.Proofs.FewestEdits
import ObjcBindings.Symbol.Suggestion
import Mathlib

namespace ObjcBindings

open Text

/-! ## §1. Occurrences. -/

/-- A text occurs in another if it is an infix of it. -/
theorem Text.occursIn_iff {needle text : List Char} :
    occursIn needle text = true ↔ needle <:+: text := by
  induction text with
  | nil => rw [occursIn, List.isEmpty_iff, List.infix_nil]
  | cons c cs ih =>
      rw [occursIn, Bool.or_eq_true, List.isPrefixOf_iff_prefix, ih, List.infix_cons_iff]

theorem Text.containsText_iff {text needle : String} :
    containsText text needle = true ↔ needle.toList <:+: text.toList :=
  occursIn_iff

namespace Suggestion

/-! ## §2. Close candidates. -/

/-- One of the texts occurs in the other, and the first is not empty. -/
def Overlaps (a b : String) : Prop :=
  a ≠ "" ∧ (a.toList <:+: b.toList ∨ b.toList <:+: a.toList)

/-- A candidate that is close to the name, and its distance. -/
inductive Close (name : String) (maxDistance : Nat) : String → Nat → Prop where
  /-- The candidate is the name up to letter case. -/
  | sameLetters {c : String} (other : c ≠ name) (same : toLower c = toLower name) :
      Close name maxDistance c 0
  /-- One occurs in the other up to letter case. -/
  | overlap {c : String} (other : c ≠ name) (differ : toLower c ≠ toLower name)
      (overlaps : Overlaps (toLower name) (toLower c)) : Close name maxDistance c 1
  /-- Few edits lead from the name to the candidate. -/
  | edits {c : String} {d : Nat} (other : c ≠ name) (differ : toLower c ≠ toLower name)
      (apart : ¬ Overlaps (toLower name) (toLower c))
      (least : IsLeast {n | Edits name.toList c.toList n} d) (near : d ≤ maxDistance) :
      Close name maxDistance c d

/-- Nearer suggestions come first, and among equally near ones the smaller
candidate. -/
def Precedes (a b : Suggestion) : Prop :=
  a.distance < b.distance ∨ a.distance = b.distance ∧ a.candidate ≤ b.candidate

/-- Names overlap if one is part of the other and the first is not empty. -/
theorem overlaps_iff {a b : String} :
    (!a.isEmpty && (containsText b a || containsText a b)) = true ↔ Overlaps a b := by
  rw [Bool.and_eq_true, Bool.or_eq_true, containsText_iff, containsText_iff, Bool.not_eq_true',
    Overlaps, ← Bool.not_eq_true, String.isEmpty_iff]

/-- **The three reasons for which a candidate is close**, and its distance. -/
theorem distance?_eq_some_iff {name c : String} {maxDistance d : Nat} :
    distance? name c maxDistance = some d ↔ Close name maxDistance c d := by
  unfold distance?
  dsimp only
  constructor
  · -- The reasons are tried in order, so each comes with the failure of those
    -- before it.
    intro h
    split at h
    · cases h
    · next other =>
      split at h
      · next same =>
        cases h
        exact .sameLetters other same
      · next differ =>
        split at h
        · next overlaps =>
          cases h
          exact .overlap other differ (overlaps_iff.1 overlaps)
        · next apart =>
          split at h
          · next near =>
            cases h
            exact .edits other differ (mt overlaps_iff.2 apart) (editDistance_isLeast name c) near
          · cases h
  · intro h
    cases h with
    | sameLetters other same => rw [if_neg other, if_pos same]
    | overlap other differ overlaps =>
        rw [if_neg other, if_neg differ, if_pos (overlaps_iff.2 overlaps)]
    | edits other differ apart least near =>
        obtain rfl := least.unique (editDistance_isLeast name c)
        rw [if_neg other, if_neg differ, if_neg (mt overlaps_iff.1 apart), if_pos near]

/-- A close candidate has one distance. -/
theorem Close.unique {name c : String} {maxDistance d d' : Nat}
    (h : Close name maxDistance c d) (h' : Close name maxDistance c d') : d = d' :=
  Option.some.inj ((distance?_eq_some_iff.2 h).symm.trans (distance?_eq_some_iff.2 h'))

/-- The suggestions before they are ranked. -/
theorem mem_suggestions_iff {name : String} {candidates : List String} {maxDistance : Nat}
    {s : Suggestion} :
    s ∈ candidates.filterMap (fun c => (distance? name c maxDistance).map (⟨c, ·⟩)) ↔
      s.candidate ∈ candidates ∧ Close name maxDistance s.candidate s.distance := by
  simp only [List.mem_filterMap, Option.map_eq_some_iff, distance?_eq_some_iff]
  constructor
  · rintro ⟨c, hc, d, hclose, rfl⟩
    exact ⟨hc, hclose⟩
  · rintro ⟨hc, hclose⟩
    exact ⟨s.candidate, hc, s.distance, hclose, rfl⟩

/-! ## §3. The order. -/

/-- The order of suggestions, in words. -/
theorem le_iff {a b : Suggestion} : a.le b = true ↔ a.Precedes b := by
  simp [le, Precedes]

/-- Of two suggestions one precedes the other, or they are equal. -/
theorem le_total (a b : Suggestion) : (a.le b || b.le a) = true := by
  rw [Bool.or_eq_true, le_iff, le_iff]
  rcases lt_trichotomy a.distance b.distance with h | h | h
  · exact .inl (.inl h)
  · rcases String.le_total a.candidate b.candidate with hc | hc
    · exact .inl (.inr ⟨h, hc⟩)
    · exact .inr (.inr ⟨h.symm, hc⟩)
  · exact .inr (.inl h)

theorem le_trans (a b c : Suggestion) (hab : a.le b = true) (hbc : b.le c = true) :
    a.le c = true := by
  rw [le_iff] at hab hbc ⊢
  rcases hab with hab | ⟨hab, hc⟩ <;> rcases hbc with hbc | ⟨hbc, hc'⟩
  · exact .inl (hab.trans hbc)
  · exact .inl (hbc ▸ hab)
  · exact .inl (hab ▸ hbc)
  · exact .inr ⟨hab.trans hbc, String.le_trans hc hc'⟩

theorem le_antisymm {a b : Suggestion} (hab : a.le b = true) (hba : b.le a = true) : a = b := by
  rw [le_iff] at hab hba
  obtain ⟨candidate, distance⟩ := a
  obtain ⟨candidate', distance'⟩ := b
  rcases hab with hab | ⟨hd, hc⟩
  · rcases hba with hba | ⟨hd', _⟩ <;> simp only at * <;> omega
  · rcases hba with hba | ⟨_, hc'⟩
    · simp only at *
      omega
    · cases hd
      cases String.le_antisymm hc hc'
      rfl

/-- The first suggestion is the least. -/
theorem head?_mergeSort_eq_some_iff {xs : List Suggestion} {a : Suggestion} :
    (xs.mergeSort le).head? = some a ↔ a ∈ xs ∧ ∀ b ∈ xs, a.le b = true := by
  have hsorted : (xs.mergeSort le).Pairwise fun a b => a.le b = true :=
    List.pairwise_mergeSort le_trans le_total xs
  have hperm : ∀ {b}, b ∈ xs ↔ b ∈ xs.mergeSort le := List.mem_mergeSort.symm
  have hhead : ∀ {a}, (xs.mergeSort le).head? = some a → a ∈ xs ∧ ∀ b ∈ xs, a.le b = true := by
    intro a ha
    obtain ⟨rest, hrest⟩ := List.head?_eq_some_iff.1 ha
    rw [hrest, List.pairwise_cons] at hsorted
    have hmem : ∀ {b}, b ∈ xs ↔ b = a ∨ b ∈ rest := by
      intro b
      rw [hperm, hrest, List.mem_cons]
    refine ⟨hmem.2 (.inl rfl), fun b hb => ?_⟩
    rcases hmem.1 hb with rfl | hb
    · simpa using le_total b b
    · exact hsorted.1 b hb
  refine ⟨hhead, ?_⟩
  rintro ⟨ha, hleast⟩
  -- The list is not empty, and its head is the only least member.
  cases hb : (xs.mergeSort le).head? with
  | none =>
      rw [List.head?_eq_none_iff] at hb
      rw [hperm, hb] at ha
      cases ha
  | some b =>
      obtain ⟨hbmem, hbleast⟩ := hhead hb
      rw [le_antisymm (hbleast a ha) (hleast b hbmem)]

/-- **The best suggestion depends only on which candidates there are.** -/
theorem best?_congr (name : String) {xs ys : List String} (h : ∀ x, x ∈ xs ↔ x ∈ ys)
    (maxDistance : Nat) : best? name xs maxDistance = best? name ys maxDistance := by
  have hhead : (list name xs maxDistance).head? = (list name ys maxDistance).head? := by
    ext a
    unfold list
    rw [head?_mergeSort_eq_some_iff, head?_mergeSort_eq_some_iff]
    simp only [List.mem_filterMap, h]
  rw [best?, best?, hhead]

/-! ## §4. The list. -/

/-- The list is in order. -/
theorem pairwise_list (name : String) (candidates : List String) (maxDistance : Nat) :
    (list name candidates maxDistance).Pairwise Precedes :=
  (List.pairwise_mergeSort le_trans le_total _).imp le_iff.1

/-- **The list holds all candidates that are close, and no others.** -/
theorem mem_list_iff {name : String} {candidates : List String} {maxDistance : Nat}
    {s : Suggestion} :
    s ∈ list name candidates maxDistance ↔
      s.candidate ∈ candidates ∧ Close name maxDistance s.candidate s.distance := by
  rw [list, List.mem_mergeSort, mem_suggestions_iff]

/-- A close candidate is suggested as often as it is among the candidates. -/
theorem count_list {name c : String} {maxDistance d : Nat} (h : Close name maxDistance c d)
    (candidates : List String) :
    (list name candidates maxDistance).count ⟨c, d⟩ = candidates.count c := by
  rw [list, (List.mergeSort_perm _ _).count_eq, List.count_filterMap, List.count_eq_countP]
  refine List.countP_congr fun x _ => ?_
  rw [beq_iff_eq, beq_iff_eq, Option.map_eq_some_iff]
  constructor
  · rintro ⟨d', _, heq⟩
    exact congrArg candidate heq
  · rintro rfl
    exact ⟨d, distance?_eq_some_iff.2 h, rfl⟩

/-- **Candidates in another order give the same list.** -/
theorem list_perm {candidates others : List String} (h : candidates.Perm others) (name : String)
    (maxDistance : Nat) : list name others maxDistance = list name candidates maxDistance := by
  have hperm : (list name others maxDistance).Perm (list name candidates maxDistance) :=
    ((List.mergeSort_perm _ _).trans (h.symm.filterMap _)).trans (List.mergeSort_perm _ _).symm
  exact hperm.eq_of_pairwise (fun a b _ _ hab hba => le_antisymm (le_iff.2 hab) (le_iff.2 hba))
    (pairwise_list name others maxDistance) (pairwise_list name candidates maxDistance)

/-- **The best suggestion is the nearest candidate.** -/
theorem best?_eq_some_iff {name c : String} {candidates : List String} {maxDistance : Nat} :
    best? name candidates maxDistance = some c ↔
      ∃ d, c ∈ candidates ∧ Close name maxDistance c d ∧
        ∀ c' ∈ candidates, ∀ d', Close name maxDistance c' d' → Precedes ⟨c, d⟩ ⟨c', d'⟩ := by
  rw [best?, Option.map_eq_some_iff]
  constructor
  · rintro ⟨⟨c, d⟩, hhead, rfl⟩
    obtain ⟨hmem, hleast⟩ := head?_mergeSort_eq_some_iff.1 hhead
    obtain ⟨hc, hclose⟩ := mem_suggestions_iff.1 hmem
    exact ⟨d, hc, hclose, fun c' hc' d' hclose' =>
      le_iff.1 (hleast ⟨c', d'⟩ (mem_suggestions_iff.2 ⟨hc', hclose'⟩))⟩
  · rintro ⟨d, hc, hclose, hleast⟩
    refine ⟨⟨c, d⟩, head?_mergeSort_eq_some_iff.2 ⟨mem_suggestions_iff.2 ⟨hc, hclose⟩, ?_⟩, rfl⟩
    intro s hs
    obtain ⟨hc', hclose'⟩ := mem_suggestions_iff.1 hs
    exact le_iff.2 (hleast s.candidate hc' s.distance hclose')

/-- There is no best suggestion if no candidate is close. -/
theorem best?_eq_none_iff {name : String} {candidates : List String} {maxDistance : Nat} :
    best? name candidates maxDistance = none ↔
      ∀ c ∈ candidates, ∀ d, ¬ Close name maxDistance c d := by
  rw [best?, Option.map_eq_none_iff, List.head?_eq_none_iff, List.eq_nil_iff_forall_not_mem]
  constructor
  · intro h c hc d hclose
    exact h ⟨c, d⟩ (mem_list_iff.2 ⟨hc, hclose⟩)
  · intro h s hs
    obtain ⟨hc, hclose⟩ := mem_list_iff.1 hs
    exact h s.candidate hc s.distance hclose

/-- **The suggestions are the close candidates**, each as often as it came, in
the one order that distance and candidate leave; the best is the first of them
in that order, and there is none only if no candidate is close. -/
theorem list_exact (name : String) (candidates : List String) (maxDistance : Nat) :
    (∀ c d, Close name maxDistance c d →
      (list name candidates maxDistance).count ⟨c, d⟩ = candidates.count c) ∧
    (∀ s ∈ list name candidates maxDistance,
      s.candidate ∈ candidates ∧ Close name maxDistance s.candidate s.distance) ∧
    (list name candidates maxDistance).Pairwise Precedes ∧
    (∀ others, candidates.Perm others →
      list name others maxDistance = list name candidates maxDistance) ∧
    (∀ c, best? name candidates maxDistance = some c ↔
      ∃ d, c ∈ candidates ∧ Close name maxDistance c d ∧
        ∀ c' ∈ candidates, ∀ d', Close name maxDistance c' d' → Precedes ⟨c, d⟩ ⟨c', d'⟩) ∧
    (best? name candidates maxDistance = none ↔
      ∀ c ∈ candidates, ∀ d, ¬ Close name maxDistance c d) :=
  ⟨fun _ _ h => count_list h candidates, fun _ => mem_list_iff.1,
    pairwise_list name candidates maxDistance, fun _ h => list_perm h name maxDistance,
    fun _ => best?_eq_some_iff, best?_eq_none_iff⟩

/-- Candidates for `Box`: itself, one with other letter case that comes twice,
one that it occurs in, one with a slip, and a stranger. -/
def boxNames : List String := ["Boxes", "box", "Box", "Bow", "box", "Node"]

/-- Two candidates at distance 1 are ordered by their names, and the best is the
one with other letter case, from whichever end the candidates are read. -/
theorem boxNames_list_exact :
    Close "Box" 1 "box" 0 ∧ boxNames.Perm boxNames.reverse ∧
    (list "Box" boxNames 1).count ⟨"box", 0⟩ = 2 ∧
    list "Box" boxNames.reverse 1 = [⟨"box", 0⟩, ⟨"box", 0⟩, ⟨"Bow", 1⟩, ⟨"Boxes", 1⟩] ∧
    (∀ c ∈ boxNames, ∀ d, Close "Box" 1 c d → Precedes ⟨"box", 0⟩ ⟨c, d⟩) := by
  have hdistance : distance? "Box" "box" 1 = some 0 := by decide +kernel
  have hclose : Close "Box" 1 "box" 0 := distance?_eq_some_iff.1 hdistance
  have hclosest : boxNames.filterMap (fun c => (distance? "Box" c 1).map (Suggestion.mk c))
      = [⟨"Boxes", 1⟩, ⟨"box", 0⟩, ⟨"Bow", 1⟩, ⟨"box", 0⟩] := by decide +kernel
  have hlist : list "Box" boxNames 1 = [⟨"box", 0⟩, ⟨"box", 0⟩, ⟨"Bow", 1⟩, ⟨"Boxes", 1⟩] := by
    rw [list, hclosest]
    cbv
  have hbest : best? "Box" boxNames 1 = some "box" := by
    rw [best?, hlist]
    rfl
  have hperm : boxNames.Perm boxNames.reverse := (List.reverse_perm _).symm
  obtain ⟨hcount, _, _, hany, hleast, _⟩ := list_exact "Box" boxNames 1
  obtain ⟨d, _, hd, hfirst⟩ := (hleast "box").1 hbest
  obtain rfl := hd.unique hclose
  have htwice : (list "Box" boxNames 1).count ⟨"box", 0⟩ = 2 := by
    rw [hcount "box" 0 hclose]
    decide
  have hreversed := hany boxNames.reverse hperm
  rw [hlist] at hreversed
  exact ⟨hclose, hperm, htwice, hreversed, hfirst⟩

end Suggestion

end ObjcBindings
