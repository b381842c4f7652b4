/-
  ObjcBindings.Text.NameSet
  ────────────────────────────────
  **SETS OF NAMES.**

  A set is an ascending list without repetitions.  `missing` counts the
  members of a list that another list does not hold yet; adding one of them
  lowers the count, which is what searches through a table run on.
-/

namespace ObjcBindings.Text

/-! ## §1. Counting. -/

/-- A test that holds less often, and not of a member of which the other holds,
counts fewer members. -/
theorem countP_lt_of_imp {α : Type} {p q : α → Bool} {l : List α}
    (himp : ∀ a ∈ l, q a = true → p a = true) {x : α} (hx : x ∈ l)
    (hp : p x = true) (hq : q x = false) : l.countP q < l.countP p := by
  induction l with
  | nil => simp at hx
  | cons a as ih =>
    have hle : as.countP q ≤ as.countP p :=
      List.countP_mono_left fun b hb => himp b (List.mem_cons_of_mem a hb)
    have ha : q a = true → p a = true := himp a List.mem_cons_self
    rw [List.countP_cons, List.countP_cons]
    rcases List.mem_cons.1 hx with rfl | hmem
    · rw [hp, hq]
      simp only [Bool.false_eq_true, if_false, if_true]
      omega
    · have hlt := ih (fun b hb => himp b (List.mem_cons_of_mem a hb)) hmem
      cases hqa : q a
      · simp only [Bool.false_eq_true, if_false]
        omega
      · simp only [ha hqa, if_true]
        omega

/-! ## §2. Sets. -/

/-- Names in ascending order. -/
abbrev NameSet := List String

namespace NameSet

/-- Add a name at its place. -/
def add (name : String) : NameSet → NameSet
  | [] => [name]
  | x :: xs =>
      if name < x then name :: x :: xs
      else if name = x then x :: xs
      else x :: add name xs

/-- The names of a list, each once and in ascending order. -/
def ofList (names : List String) : NameSet :=
  names.foldl (fun s n => add n s) []

/-- Adding a name adds it and keeps the others. -/
theorem mem_add {n name : String} {s : NameSet} : n ∈ add name s ↔ n = name ∨ n ∈ s := by
  induction s with
  | nil => simp [add]
  | cons x xs ih =>
    simp only [add]
    split
    · simp
    · split
      · next h => subst h; simp
      · simp only [List.mem_cons, ih]
        constructor
        · rintro (h | h | h) <;> simp [h]
        · rintro (h | h | h) <;> simp [h]

/-- Adding a name keeps the order. -/
theorem pairwise_add {name : String} {s : NameSet} (h : s.Pairwise (· < ·)) :
    (add name s).Pairwise (· < ·) := by
  induction s with
  | nil => simp [add]
  | cons x xs ih =>
    obtain ⟨hx, hxs⟩ := List.pairwise_cons.1 h
    simp only [add]
    split
    · next hlt =>
      refine List.pairwise_cons.2 ⟨?_, h⟩
      intro y hy
      rcases List.mem_cons.1 hy with rfl | hy
      · exact hlt
      · exact String.lt_trans hlt (hx y hy)
    · next hlt =>
      split
      · exact h
      · next hne =>
        have hgt : x < name := Std.lt_of_le_of_ne (String.not_lt.1 hlt) (Ne.symm hne)
        refine List.pairwise_cons.2 ⟨?_, ih hxs⟩
        intro y hy
        rcases mem_add.1 hy with rfl | hy
        · exact hgt
        · exact hx y hy

/-- Adding names in turn keeps the order and adds each. -/
theorem foldl_add_spec (names : List String) {s : NameSet} (h : s.Pairwise (· < ·)) :
    (names.foldl (fun s n => add n s) s).Pairwise (· < ·) ∧
      ∀ n, n ∈ names.foldl (fun s n => add n s) s ↔ n ∈ names ∨ n ∈ s := by
  induction names generalizing s with
  | nil => exact ⟨h, fun n => by simp⟩
  | cons name names ih =>
    rw [List.foldl_cons]
    obtain ⟨hsorted, hmem⟩ := ih (pairwise_add h)
    refine ⟨hsorted, fun n => ?_⟩
    rw [hmem, mem_add, List.mem_cons]
    grind

/-- The set of a list has its members. -/
theorem mem_ofList {n : String} {names : List String} : n ∈ ofList names ↔ n ∈ names := by
  rw [ofList, (foldl_add_spec names List.Pairwise.nil).2]
  simp

/-- No name stands twice in the set of a list. -/
theorem nodup_ofList (names : List String) : (ofList names).Nodup := by
  refine (foldl_add_spec names List.Pairwise.nil).1.imp ?_
  rintro a b hlt rfl
  exact String.lt_irrefl a hlt

/-! ## §3. What a set does not hold yet. -/

/-- How many of `all` are not in `s`. -/
def missing (all s : List String) : Nat :=
  all.countP (fun n => decide (n ∉ s))

/-- The more a set has, the less is missing. -/
theorem missing_anti (all : List String) {s s' : List String} (h : ∀ n ∈ s, n ∈ s') :
    missing all s' ≤ missing all s := by
  refine List.countP_mono_left fun n _ hn => ?_
  simp only [decide_eq_true_eq] at hn ⊢
  exact fun hmem => hn (h n hmem)

/-- With one more member of a list less is missing. -/
theorem missing_lt {all s s' : List String} {name : String} (hall : name ∈ all)
    (hs : name ∉ s) (hs' : ∀ n, n ∈ s' ↔ n = name ∨ n ∈ s) :
    missing all s' < missing all s := by
  apply countP_lt_of_imp (x := name) _ hall
  · simpa using hs
  · simp [hs']
  · intro n _ hn
    simp only [decide_eq_true_eq, hs'] at hn ⊢
    exact fun h => hn (.inr h)

/-- Adding a missing member of a list lowers the count. -/
theorem missing_add_lt {all : List String} {name : String} {s : NameSet}
    (hall : name ∈ all) (hs : name ∉ s) : missing all (add name s) < missing all s :=
  missing_lt hall hs fun _ => mem_add

theorem missing_cons_lt {all s : List String} {name : String}
    (hall : name ∈ all) (hs : name ∉ s) : missing all (name :: s) < missing all s :=
  missing_lt hall hs fun _ => List.mem_cons

/-- No more is missing than there is. -/
theorem missing_le_length (all s : List String) : missing all s ≤ all.length :=
  List.countP_le_length

end NameSet

end ObjcBindings.Text
