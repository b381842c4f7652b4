/-
  ObjcBindings.Proofs.CountedNames
  ────────────────────────────────
  **COUNTING UP ENDS AT THE FIRST FREE NAME.**

  A name is made unique by a loop that inserts one candidate after the other
  into the names that are taken, until an insertion adds something.  Nothing
  bounds the loop, and the names that are taken may look like candidates
  themselves.  But candidates are pairwise distinct, so of one more than are
  taken some is free:

      CountsUp  — a run of the loop
      Serves    — runs for one wish after the other

  Main results:
    • `countsUp_firstFree` — the loop ends with the name that is chosen,
    • `le_card_of_taken` — after at most one more insertion than names are taken,
    • `serves_iff` — and what it returns, wish after wish, is what is written.
-/
import ObjcBindings.Proofs.DistinctNames
import Mathlib

namespace ObjcBindings

open Text

/-! ## §1. The loop. -/

/-- The loop that inserts the candidates of a wish from the `k`-th on, with the
number of insertions, what is taken afterwards, and the candidate that was
new. -/
inductive CountsUp (wish : String) : Nat → Finset String → Nat → Finset String → String → Prop where
  /-- The insertion adds the candidate. -/
  | free {k : Nat} {taken : Finset String} (new : nameCandidate wish k ∉ taken) :
      CountsUp wish k taken 1 (insert (nameCandidate wish k) taken) (nameCandidate wish k)
  /-- The candidate was there, and the next one is tried. -/
  | next {k rounds : Nat} {taken taken' : Finset String} {name : String}
      (old : nameCandidate wish k ∈ taken)
      (others : CountsUp wish (k + 1) (insert (nameCandidate wish k) taken) rounds taken' name) :
      CountsUp wish k taken (rounds + 1) taken' name

/-- The loop is run for one wish after the other, and returns the names as they
are written. -/
inductive Serves : List String → Finset String → List String → Finset String → Prop where
  | done {taken : Finset String} : Serves [] taken [] taken
  | next {wish name : String} {wishes idents : List String} {rounds : Nat}
      {taken taken' taken'' : Finset String} (counted : CountsUp wish 0 taken rounds taken' name)
      (others : Serves wishes taken' idents taken'') :
      Serves (wish :: wishes) taken (Ident.escape name :: idents) taken''

variable {wish name name' : String} {k rounds rounds' : Nat} {taken taken' taken'' : Finset String}

/-- **The loop ends in at most one way.** -/
theorem CountsUp.unique (h : CountsUp wish k taken rounds taken' name)
    (h' : CountsUp wish k taken rounds' taken'' name') :
    rounds = rounds' ∧ taken' = taken'' ∧ name = name' := by
  induction h generalizing rounds' with
  | free new =>
      cases h' with
      | free _ => exact ⟨rfl, rfl, rfl⟩
      | next old _ => exact absurd old new
  | next old _ ih =>
      cases h' with
      | free new => exact absurd old new
      | next _ others =>
          obtain ⟨rfl, rfl, rfl⟩ := ih others
          exact ⟨rfl, rfl, rfl⟩

/-- The loop passes the candidates that are taken and ends at one that is not. -/
theorem countsUp_of_first (free : nameCandidate wish (k + rounds) ∉ taken)
    (earlier : ∀ j < rounds, nameCandidate wish (k + j) ∈ taken) :
    CountsUp wish k taken (rounds + 1) (insert (nameCandidate wish (k + rounds)) taken)
      (nameCandidate wish (k + rounds)) := by
  induction rounds generalizing k with
  | zero => exact .free free
  | succ rounds ih =>
      have hk : nameCandidate wish k ∈ taken := earlier 0 (Nat.succ_pos rounds)
      have hshift : ∀ j, k + 1 + j = k + (j + 1) := fun j => by omega
      refine .next hk ?_
      -- The insertion of a name that is taken changes nothing.
      rw [Finset.insert_eq_of_mem hk, ← hshift rounds]
      refine ih (hshift rounds ▸ free) fun j hj => ?_
      rw [hshift]
      exact earlier (j + 1) (Nat.succ_lt_succ hj)

/-! ## §2. The first free candidate. -/

/-- The search for a free candidate has passed taken ones only. -/
theorem firstFreeFrom_first (wish : String) (taken : List String) :
    ∀ tries k, ∃ i, firstFreeFrom wish taken tries k = nameCandidate wish (k + i) ∧
      ∀ j < i, nameCandidate wish (k + j) ∈ taken
  | 0, k => ⟨0, rfl, fun _ hj => absurd hj (Nat.not_lt_zero _)⟩
  | tries + 1, k => by
      unfold firstFreeFrom
      split
      · next hk =>
        obtain ⟨i, hi, htaken⟩ := firstFreeFrom_first wish taken tries (k + 1)
        refine ⟨i + 1, hi.trans (by rw [Nat.add_right_comm, Nat.add_assoc]), fun j hj => ?_⟩
        cases j with
        | zero => exact hk
        | succ j =>
            rw [← Nat.add_assoc, Nat.add_right_comm]
            exact htaken j (Nat.lt_of_succ_lt_succ hj)
      · exact ⟨0, rfl, fun _ hj => absurd hj (Nat.not_lt_zero _)⟩

/-- **The name that is chosen is the first free candidate.** -/
theorem firstFree_first (wish : String) (taken : List String) :
    ∃ k, firstFree wish taken = nameCandidate wish k ∧ nameCandidate wish k ∉ taken ∧
      ∀ j < k, nameCandidate wish j ∈ taken := by
  obtain ⟨k, hk, htaken⟩ := firstFreeFrom_first wish taken taken.length 0
  rw [Nat.zero_add] at hk
  refine ⟨k, hk, ?_, fun j hj => ?_⟩
  · rw [← hk]
    exact firstFree_not_mem wish taken
  · rw [← Nat.zero_add j]
    exact htaken j hj

/-- As many candidates as are passed are taken, for no two are alike. -/
theorem le_card_of_taken (h : ∀ j < k, nameCandidate wish j ∈ taken) : k ≤ taken.card := by
  have hsub : (Finset.range k).image (nameCandidate wish) ⊆ taken := by
    intro name hname
    obtain ⟨j, hj, rfl⟩ := Finset.mem_image.1 hname
    exact h j (Finset.mem_range.1 hj)
  have hcard := Finset.card_le_card hsub
  rwa [Finset.card_image_of_injective _ (nameCandidate_injective wish), Finset.card_range] at hcard

/-- **The loop ends with the name that is chosen**, after at most one more
insertion than names are taken. -/
theorem countsUp_firstFree (wish : String) (taken : List String) :
    ∃ rounds ≤ taken.toFinset.card + 1, CountsUp wish 0 taken.toFinset rounds
      (insert (firstFree wish taken) taken.toFinset) (firstFree wish taken) := by
  obtain ⟨k, hk, hfree, htaken⟩ := firstFree_first wish taken
  have hfree' : nameCandidate wish (0 + k) ∉ taken.toFinset := by
    rwa [Nat.zero_add, List.mem_toFinset]
  have htaken' : ∀ j < k, nameCandidate wish j ∈ taken.toFinset :=
    fun j hj => List.mem_toFinset.2 (htaken j hj)
  have hrun := countsUp_of_first hfree' fun j hj => (Nat.zero_add j).symm ▸ htaken' j hj
  rw [Nat.zero_add, ← hk] at hrun
  exact ⟨k + 1, Nat.succ_le_succ (le_card_of_taken htaken'), hrun⟩

/-- Which candidate is the first: the wish, or the one with the least number
from two on. -/
theorem firstFree_cases (wish : String) (taken : List String) :
    (wish ∉ taken ∧ firstFree wish taken = wish) ∨
      (wish ∈ taken ∧ ∃ k, firstFree wish taken = wish ++ "_" ++ toString k ∧
        IsLeast {k | 2 ≤ k ∧ wish ++ "_" ++ toString k ∉ taken} k) := by
  obtain ⟨k, hk, hfree, htaken⟩ := firstFree_first wish taken
  cases k with
  | zero => exact .inl ⟨hfree, hk⟩
  | succ k =>
      refine .inr ⟨htaken 0 (Nat.succ_pos k), k + 2, hk, ⟨Nat.le_add_left 2 k, hfree⟩, ?_⟩
      rintro j ⟨htwo, hj⟩
      by_contra hlt
      obtain ⟨i, rfl⟩ := Nat.exists_eq_add_of_le' htwo
      exact hj (htaken (i + 1) (by omega))

/-! ## §3. Wish after wish. -/

/-- **What the loop returns, wish after wish, is what is written.** -/
theorem serves_iff {idents : List String} {taken' : Finset String} {wishes names : List String} :
    Serves wishes names.toFinset idents taken' ↔
      idents = (uniqueNames names wishes).map Ident.escape ∧
        taken' = (uniqueNames names wishes ++ names).toFinset := by
  induction wishes generalizing names idents taken' with
  | nil =>
      constructor
      · rintro ⟨⟩
        exact ⟨rfl, rfl⟩
      · rintro ⟨rfl, rfl⟩
        exact .done
  | cons wish wishes ih =>
      obtain ⟨rounds, _, hrun⟩ := countsUp_firstFree wish names
      rw [← List.toFinset_cons] at hrun
      -- The new name stands before the later ones here, and after them in what is taken.
      have hset : (uniqueNames names (wish :: wishes) ++ names).toFinset
          = (uniqueNames (firstFree wish names :: names) wishes
              ++ firstFree wish names :: names).toFinset :=
        (List.toFinset_eq_of_perm _ _ List.perm_middle).symm
      rw [hset]
      constructor
      · intro h
        cases h with
        | next counted others =>
            obtain ⟨_, rfl, rfl⟩ := hrun.unique counted
            obtain ⟨rfl, htaken⟩ := ih.1 others
            exact ⟨rfl, htaken⟩
      · rintro ⟨rfl, htaken⟩
        exact .next hrun (ih.2 ⟨rfl, htaken⟩)

/-! ## §4. The theorem. -/

/-- **Counting up ends at the first free name**, whatever is taken.  There is one
run of the loop; it makes at most one more insertion than names are taken, and
adds exactly the name that is chosen.  That name is the wish, or the wish with
the least number from two on that is free; and it is written with its keywords
made usable. -/
theorem unique_name_counted (wish : String) (taken : List String) :
    (∃! run : Nat × Finset String × String,
      CountsUp wish 0 taken.toFinset run.1 run.2.1 run.2.2) ∧
    (∃ rounds ≤ taken.toFinset.card + 1, CountsUp wish 0 taken.toFinset rounds
      (insert (firstFree wish taken) taken.toFinset) (firstFree wish taken)) ∧
    firstFree wish taken ∉ taken.toFinset ∧
    ((wish ∉ taken ∧ firstFree wish taken = wish) ∨
      (wish ∈ taken ∧ ∃ k, firstFree wish taken = wish ++ "_" ++ toString k ∧
        IsLeast {k | 2 ≤ k ∧ wish ++ "_" ++ toString k ∉ taken} k)) ∧
    Serves [wish] taken.toFinset [Ident.escape (firstFree wish taken)]
      (insert (firstFree wish taken) taken.toFinset) ∧
    ∀ wishes idents names, Serves wishes ∅ idents names ↔
      idents = uniqueIdents wishes ∧ names = (uniqueNames [] wishes).toFinset := by
  obtain ⟨rounds, hrounds, hrun⟩ := countsUp_firstFree wish taken
  refine ⟨⟨⟨rounds, _, _⟩, hrun, ?_⟩, ⟨rounds, hrounds, hrun⟩, ?_, firstFree_cases wish taken,
    .next hrun .done, fun wishes idents names => ?_⟩
  · rintro ⟨rounds', taken', name⟩ hrun'
    obtain ⟨rfl, rfl, rfl⟩ := hrun.unique hrun'
    rfl
  · rw [List.mem_toFinset]
    exact firstFree_not_mem wish taken
  · have hserves : Serves wishes ([] : List String).toFinset idents names ↔ _ := serves_iff
    rwa [List.toFinset_nil, List.append_nil] at hserves

-- Names that are taken may look like candidates; a keyword is counted like any other name.
example : firstFree "type" ["type_3", "type", "type_2"] = "type_4" ∧
    uniqueIdents ["type", "type", "type_2"] = ["r#type", "type_2", "type_2_2"] := by
  decide

end ObjcBindings
