/-
  ObjcBindings.Proofs.FewestEdits
  ────────────────────────────────
  **THE EDIT DISTANCE IS THE LEAST NUMBER OF EDITS.**

  An edit inserts, deletes or replaces one character anywhere in a text.  Edits
  may overlap, so a row of them is first turned into an alignment: both texts
  are read once from the left, and every character is kept, replaced, inserted
  or deleted.  The cheapest alignment of two texts is found from those of
  shorter texts, and that is how the rows of the table are computed.

      Edits                    — a number of edits, one after the other
      Aligned                  — two texts side by side, and what it costs
      IsRow                    — the least costs for one text and the prefixes of
                                 another
      aligned_of_edits         — no row of edits beats the best alignment
      isRow_extendRow          — one row of the table leads to the next
      editDistance_isLeast     — so the last entry is the least number of edits
-/
import ObjcBindings.Text.EditDistance
import Mathlib

namespace ObjcBindings.Text

/-! ## §1. Edits. -/

/-- One character is inserted, deleted or replaced. -/
inductive Edit : List Char → List Char → Prop where
  | insert (before after : List Char) (c : Char) : Edit (before ++ after) (before ++ c :: after)
  | delete (before after : List Char) (c : Char) : Edit (before ++ c :: after) (before ++ after)
  | replace (before after : List Char) (c d : Char) :
      Edit (before ++ c :: after) (before ++ d :: after)

/-- A number of edits leads from one text to the other. -/
inductive Edits (s : List Char) : List Char → Nat → Prop where
  | none : Edits s s 0
  | more {t u : List Char} {n : Nat} (before : Edits s t n) (edit : Edit t u) : Edits s u (n + 1)

/-- An edit after a common first character. -/
theorem Edit.cons {s t : List Char} (h : Edit s t) (c : Char) : Edit (c :: s) (c :: t) := by
  cases h with
  | insert before after d => exact .insert (c :: before) after d
  | delete before after d => exact .delete (c :: before) after d
  | replace before after d e => exact .replace (c :: before) after d e

/-- A character in front does not take another edit. -/
theorem Edits.cons {s t : List Char} {n : Nat} (h : Edits s t n) (c : Char) :
    Edits (c :: s) (c :: t) n := by
  induction h with
  | none => exact .none
  | more _ edit ih => exact .more ih (edit.cons c)

/-! ## §2. Alignments. -/

/-- Both texts read from the left: every character is kept, replaced, inserted
or deleted, and all but the kept ones are counted. -/
inductive Aligned : List Char → List Char → Nat → Prop where
  | nil : Aligned [] [] 0
  | keep {s t : List Char} {n : Nat} (c : Char) (rest : Aligned s t n) :
      Aligned (c :: s) (c :: t) n
  | replace {s t : List Char} {n : Nat} (c d : Char) (rest : Aligned s t n) :
      Aligned (c :: s) (d :: t) (n + 1)
  | insert {s t : List Char} {n : Nat} (d : Char) (rest : Aligned s t n) :
      Aligned s (d :: t) (n + 1)
  | delete {s t : List Char} {n : Nat} (c : Char) (rest : Aligned s t n) :
      Aligned (c :: s) t (n + 1)

namespace Aligned

variable {s s' t t' : List Char} {n m : Nat}

/-- A text is aligned with itself at no cost. -/
theorem refl : ∀ s : List Char, Aligned s s 0
  | [] => .nil
  | c :: s => .keep c (refl s)

/-- An alignment tells how to edit one text into the other. -/
theorem edits (h : Aligned s t n) : Edits s t n := by
  induction h with
  | nil => exact .none
  | keep c _ ih => exact ih.cons c
  | @replace s t n c d _ ih => exact .more (ih.cons c) (.replace [] t c d)
  | @insert s t n d _ ih => exact .more ih (.insert [] t d)
  | @delete s t n c _ ih => exact .more (ih.cons c) (.delete [] t c)

/-- Alignments in a row add their costs. -/
theorem append (h : Aligned s t n) (h' : Aligned s' t' m) :
    Aligned (s ++ s') (t ++ t') (n + m) := by
  induction h with
  | nil => simpa using h'
  | keep c _ ih => exact .keep c ih
  | replace c d _ ih => exact Nat.add_right_comm _ m 1 ▸ .replace c d ih
  | insert d _ ih => exact Nat.add_right_comm _ m 1 ▸ .insert d ih
  | delete c _ ih => exact Nat.add_right_comm _ m 1 ▸ .delete c ih

/-- Where the second text is cut, the first can be cut, too. -/
theorem split {a b : List Char} (h : Aligned s t n) (ht : t = a ++ b) :
    ∃ s₁ s₂ n₁ n₂, s = s₁ ++ s₂ ∧ n = n₁ + n₂ ∧ Aligned s₁ a n₁ ∧ Aligned s₂ b n₂ := by
  -- With nothing before the cut, all of the first text stands after it.
  have hnone {s t : List Char} {n : Nat} (h : Aligned s t n) (ht : t = [] ++ b) :
      ∃ s₁ s₂ n₁ n₂, s = s₁ ++ s₂ ∧ n = n₁ + n₂ ∧ Aligned s₁ [] n₁ ∧ Aligned s₂ b n₂ := by
    subst ht
    exact ⟨[], s, 0, n, rfl, n.zero_add.symm, .nil, h⟩
  induction h generalizing a with
  | nil =>
      obtain ⟨rfl, rfl⟩ := List.append_eq_nil_iff.1 ht.symm
      exact hnone .nil rfl
  | keep c rest ih =>
      cases a with
      | nil => exact hnone (rest.keep c) ht
      | cons d a =>
          rw [List.cons_append, List.cons_eq_cons] at ht
          obtain ⟨rfl, ht⟩ := ht
          obtain ⟨s₁, s₂, n₁, n₂, rfl, rfl, h₁, h₂⟩ := ih ht
          exact ⟨c :: s₁, s₂, n₁, n₂, rfl, rfl, h₁.keep c, h₂⟩
  | replace c d rest ih =>
      cases a with
      | nil => exact hnone (rest.replace c d) ht
      | cons e a =>
          rw [List.cons_append, List.cons_eq_cons] at ht
          obtain ⟨rfl, ht⟩ := ht
          obtain ⟨s₁, s₂, n₁, n₂, rfl, rfl, h₁, h₂⟩ := ih ht
          exact ⟨c :: s₁, s₂, n₁ + 1, n₂, rfl, Nat.add_right_comm n₁ n₂ 1, h₁.replace c d, h₂⟩
  | insert d rest ih =>
      cases a with
      | nil => exact hnone (rest.insert d) ht
      | cons e a =>
          rw [List.cons_append, List.cons_eq_cons] at ht
          obtain ⟨rfl, ht⟩ := ht
          obtain ⟨s₁, s₂, n₁, n₂, rfl, rfl, h₁, h₂⟩ := ih ht
          exact ⟨s₁, s₂, n₁ + 1, n₂, rfl, Nat.add_right_comm n₁ n₂ 1, h₁.insert d, h₂⟩
  | delete c rest ih =>
      obtain ⟨s₁, s₂, n₁, n₂, rfl, rfl, h₁, h₂⟩ := ih ht
      exact ⟨c :: s₁, s₂, n₁ + 1, n₂, rfl, Nat.add_right_comm n₁ n₂ 1, h₁.delete c, h₂⟩

/-- Without the first character of the second text. -/
theorem without_head {c : Char} (h : Aligned s (c :: t) n) : ∃ m ≤ n + 1, Aligned s t m := by
  generalize ht : c :: t = t' at h
  induction h with
  | nil => cases ht
  | @keep _ _ n _ rest =>
      cases ht
      exact ⟨n + 1, le_rfl, rest.delete c⟩
  | @replace _ _ n d _ rest =>
      cases ht
      exact ⟨n + 1, by omega, rest.delete d⟩
  | @insert _ _ n _ rest =>
      cases ht
      exact ⟨n, by omega, rest⟩
  | delete d _ ih =>
      obtain ⟨m, hm, hrest⟩ := ih ht
      exact ⟨m + 1, by omega, hrest.delete d⟩

/-- With another first character in the second text. -/
theorem with_head {c : Char} (h : Aligned s (c :: t) n) (d : Char) :
    ∃ m ≤ n + 1, Aligned s (d :: t) m := by
  generalize ht : c :: t = t' at h
  induction h with
  | nil => cases ht
  | @keep _ _ n _ rest =>
      cases ht
      exact ⟨n + 1, le_rfl, rest.replace c d⟩
  | @replace _ _ n e _ rest =>
      cases ht
      exact ⟨n + 1, by omega, rest.replace e d⟩
  | @insert _ _ n _ rest =>
      cases ht
      exact ⟨n + 1, by omega, rest.insert d⟩
  | delete e _ ih =>
      obtain ⟨m, hm, hrest⟩ := ih ht
      exact ⟨m + 1, by omega, hrest.delete e⟩

/-- One more edit costs an alignment at most one more. -/
theorem edit (h : Aligned s t n) (hedit : Edit t t') : ∃ m ≤ n + 1, Aligned s t' m := by
  cases hedit with
  | insert before after c =>
      obtain ⟨s₁, s₂, n₁, n₂, rfl, rfl, h₁, h₂⟩ := h.split rfl
      exact ⟨n₁ + (n₂ + 1), by omega, h₁.append (h₂.insert c)⟩
  | delete before after c =>
      obtain ⟨s₁, s₂, n₁, n₂, rfl, rfl, h₁, h₂⟩ := h.split rfl
      obtain ⟨m, hm, h₂⟩ := h₂.without_head
      exact ⟨n₁ + m, by omega, h₁.append h₂⟩
  | replace before after c d =>
      obtain ⟨s₁, s₂, n₁, n₂, rfl, rfl, h₁, h₂⟩ := h.split rfl
      obtain ⟨m, hm, h₂⟩ := h₂.with_head d
      exact ⟨n₁ + m, by omega, h₁.append h₂⟩

/-- Read from the right, the texts are aligned as well. -/
theorem reverse (h : Aligned s t n) : Aligned s.reverse t.reverse n := by
  induction h with
  | nil => exact .nil
  | keep c _ ih =>
      rw [List.reverse_cons, List.reverse_cons]
      exact ih.append (.keep c .nil)
  | replace c d _ ih =>
      rw [List.reverse_cons, List.reverse_cons]
      exact ih.append (.replace c d .nil)
  | @insert s t n d _ ih =>
      rw [List.reverse_cons, ← List.append_nil s.reverse]
      exact ih.append (.insert d .nil)
  | @delete s t n c _ ih =>
      rw [List.reverse_cons, ← List.append_nil t.reverse]
      exact ih.append (.delete c .nil)

/-- Alignments may be read backwards. -/
theorem reverse_iff : Aligned s.reverse t.reverse n ↔ Aligned s t n :=
  ⟨fun h => by simpa using h.reverse, reverse⟩

end Aligned

/-- **No row of edits beats the best alignment.** -/
theorem aligned_of_edits {s t : List Char} {n : Nat} (h : Edits s t n) :
    ∃ m ≤ n, Aligned s t m := by
  induction h with
  | none => exact ⟨0, le_rfl, .refl s⟩
  | more _ edit ih =>
      obtain ⟨m, hm, haligned⟩ := ih
      obtain ⟨m', hm', haligned⟩ := haligned.edit edit
      exact ⟨m', by omega, haligned⟩

/-! ## §3. The least cost. -/

/-- The least cost of an alignment. -/
def LeastCost (s t : List Char) (n : Nat) : Prop :=
  IsLeast {m | Aligned s t m} n

namespace LeastCost

variable {s t : List Char} {c d : Char} {n : Nat}

theorem nil : LeastCost [] [] 0 :=
  ⟨.nil, fun _ _ => Nat.zero_le _⟩

/-- One more character on the left costs one. -/
theorem cons_left (h : LeastCost s [] n) : LeastCost (c :: s) [] (n + 1) := by
  refine ⟨h.1.delete c, ?_⟩
  rintro m (_ | _ | _ | _ | ⟨_, rest⟩)
  exact Nat.succ_le_succ (h.2 rest)

theorem cons_right (h : LeastCost [] t n) : LeastCost [] (d :: t) (n + 1) := by
  refine ⟨h.1.insert d, ?_⟩
  rintro m (_ | _ | _ | ⟨_, rest⟩ | _)
  exact Nat.succ_le_succ (h.2 rest)

/-- **The least cost from those of shorter texts**: the first character of one
text is left over, or the two first characters are paired. -/
theorem cons_cons {up left corner : Nat} (hup : LeastCost s (d :: t) up)
    (hleft : LeastCost (c :: s) t left) (hcorner : LeastCost s t corner) :
    LeastCost (c :: s) (d :: t)
      (min (min (up + 1) (left + 1)) (corner + if c = d then 0 else 1)) := by
  constructor
  · -- The minimum is the cost of one of three alignments.
    have hpaired : Aligned (c :: s) (d :: t) (corner + if c = d then 0 else 1) := by
      split
      · next h => exact h ▸ hcorner.1.keep c
      · exact hcorner.1.replace c d
    rcases min_choice (min (up + 1) (left + 1)) (corner + if c = d then 0 else 1) with h | h
    · rw [h]
      rcases min_choice (up + 1) (left + 1) with h | h
      · rw [h]
        exact hup.1.delete c
      · rw [h]
        exact hleft.1.insert d
    · rw [h]
      exact hpaired
  · -- An alignment opens with one of four edits, and its rest costs no less than
    -- the least for what is left.
    intro m hm
    cases hm with
    | keep _ rest =>
        have hle := hcorner.2 rest
        rw [if_pos rfl]
        omega
    | replace _ _ rest =>
        have hle := hcorner.2 rest
        split <;> omega
    | insert _ rest =>
        have hle := hleft.2 rest
        omega
    | delete _ rest =>
        have hle := hup.2 rest
        omega

end LeastCost

/-! ## §4. Rows. -/

/-- The entries are the least costs for `s` and the texts that `t` grows to as
the characters to come are put in front of it one by one. -/
inductive IsRow (s : List Char) : List Char → List Char → List Nat → Prop where
  | last {t : List Char} {n : Nat} (least : LeastCost s t n) : IsRow s t [] [n]
  | next {t coming : List Char} {y : Char} {n : Nat} {row : List Nat}
      (least : LeastCost s t n) (rest : IsRow s (y :: t) coming row) :
      IsRow s t (y :: coming) (n :: row)

section Rows

variable {s t coming : List Char} {c : Char} {row : List Nat}

/-- The last entry of a row is the cost of the whole text. -/
theorem IsRow.getLast? (h : IsRow s t coming row) :
    ∃ n, row.getLast? = some n ∧ LeastCost s (coming.reverse ++ t) n := by
  induction h with
  | @last t n least => exact ⟨n, rfl, least⟩
  | @next t coming y n row least rest ih =>
      obtain ⟨m, hm, hleast⟩ := ih
      refine ⟨m, ?_, by simpa using hleast⟩
      rw [List.getLast?_cons, hm, Option.getD_some]

/-- Nothing is turned into a text by as many insertions as it is long. -/
theorem isRow_range' {n : Nat} (h : LeastCost [] t n) :
    IsRow [] t coming (List.range' n (coming.length + 1)) := by
  induction coming generalizing t n with
  | nil => exact .last h
  | cons y coming ih => exact .next h (ih h.cons_right)

/-- **The rest of the next row** from its first entry and the row above. -/
theorem isRow_extendRow {left corner : Nat} {above : List Nat} (h : LeastCost (c :: s) t left)
    (habove : IsRow s t coming (corner :: above)) :
    IsRow (c :: s) t coming (extendRow c coming left corner above) := by
  induction coming generalizing t left corner above with
  | nil =>
      rw [extendRow]
      · exact .last h
      · simp
  | cons y coming ih =>
      obtain _ | ⟨hcorner, hrest⟩ := habove
      -- The row above goes on with the entry above the next one.
      obtain ⟨up, above, rfl⟩ : ∃ up above', above = up :: above' := by
        cases hrest with
        | last => exact ⟨_, _, rfl⟩
        | next => exact ⟨_, _, rfl⟩
      have hup : LeastCost s (y :: t) up := by
        cases hrest with
        | last least => exact least
        | next least => exact least
      rw [extendRow]
      exact .next h (ih (hup.cons_cons h hcorner) hrest)

/-- **One row leads to the next.** -/
theorem isRow_nextRow (h : IsRow s [] coming row) :
    IsRow (c :: s) [] coming (nextRow coming row c) := by
  cases h with
  | last least => exact isRow_extendRow least.cons_left (.last least)
  | next least rest => exact isRow_extendRow least.cons_left (.next least rest)

/-- **The invariant of the rows**: each step makes the next row. -/
theorem isRow_foldl (source : List Char) (h : IsRow s [] coming row) :
    IsRow (source.reverse ++ s) [] coming (source.foldl (nextRow coming) row) := by
  induction source generalizing s row with
  | nil => exact h
  | cons c source ih =>
      rw [List.foldl_cons, List.reverse_cons, List.append_assoc]
      exact ih (isRow_nextRow h)

end Rows

/-! ## §5. The distance. -/

/-- **The distance is the least cost of an alignment.** -/
theorem leastCost_editDistance (source target : String) :
    LeastCost source.toList.reverse target.toList.reverse (editDistance source target) := by
  have hstart : IsRow [] [] target.toList (List.range (target.length + 1)) := by
    rw [List.range_eq_range', ← String.length_toList]
    exact isRow_range' .nil
  obtain ⟨n, hn, hleast⟩ := (isRow_foldl source.toList hstart).getLast?
  rw [List.append_nil, List.append_nil] at hleast
  unfold editDistance
  dsimp only
  rw [hn]
  exact hleast

/-- **The edit distance is the least number of edits** that turn one text into
the other. -/
theorem editDistance_isLeast (source target : String) :
    IsLeast {n | Edits source.toList target.toList n} (editDistance source target) := by
  obtain ⟨haligned, hleast⟩ := leastCost_editDistance source target
  refine ⟨(Aligned.reverse_iff.1 haligned).edits, fun n hn => ?_⟩
  obtain ⟨m, hm, h⟩ := aligned_of_edits hn
  exact (hleast h.reverse).trans hm

end ObjcBindings.Text
