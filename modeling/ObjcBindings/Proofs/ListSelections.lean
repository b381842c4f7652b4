/-
  ObjcBindings.Proofs.ListSelections
  ────────────────────────────────
  **SELECTIONS FROM LISTS.**

  Plans and tables select members by a name or a USR, in the order of a list.
  What a selection finds is said here for any list:

    • where no key stands twice, a selection by a key has one member
      (`filter_key_eq_singleton`, `lookup_of_mem_of_nodup`,
      `flatMap_of_unique`), and none for a key that is missing,
    • a selection of mapped members keeps their order
      (`map_filter_eq_filterMap`, `map_filterMap_sublist`),
    • of repeated members one stays (`dedup_concat`, `nodup_eraseDups`).
-/
import Mathlib.Data.List.Dedup
import Mathlib.Data.List.Nodup

namespace ObjcBindings

variable {α β : Type}

/-! ## §1. Selections by a key. -/

/-- A member of a list without repetitions, selected. -/
theorem filter_eq_singleton [DecidableEq α] {l : List α} {a : α} (hl : l.Nodup) (ha : a ∈ l) :
    l.filter (· = a) = [a] := by
  rw [List.filter_eq, List.count_eq_one_of_mem hl ha, List.replicate_one]

/-- One of some things with distinct keys, selected by its key. -/
theorem filter_key_eq_singleton {key : α → String} {l : List α} {a : α}
    (hl : (l.map key).Nodup) (ha : a ∈ l) : l.filter (key · == key a) = [a] := by
  induction l with
  | nil => cases ha
  | cons x l ih =>
      obtain ⟨hx, hl⟩ := List.nodup_cons.1 hl
      rcases List.mem_cons.1 ha with rfl | ha
      · have hrest : l.filter (key · == key a) = [] := by
          refine List.filter_eq_nil_iff.2 fun y hy he => hx ?_
          exact beq_iff_eq.1 he ▸ List.mem_map_of_mem hy
        rw [List.filter_cons_of_pos (by simp), hrest]
      · have hne : key x ≠ key a := fun he => hx (he ▸ List.mem_map_of_mem ha)
        rw [List.filter_cons_of_neg (by simpa using hne), ih hl ha]

/-- A key that is missing selects nothing. -/
theorem filter_key_eq_nil {key : α → String} {l : List α} {k : String}
    (h : k ∉ l.map key) : l.filter (key · == k) = [] := by
  rw [List.filter_eq_nil_iff]
  intro x hx hkey
  exact h (List.mem_map.2 ⟨x, hx, beq_iff_eq.1 hkey⟩)

/-- The member of a key among things that are made of their keys. -/
theorem find?_map_key {f : String → α} {key : α → String} (hf : ∀ k, key (f k) = k)
    (ks : List String) (k : String) :
    (ks.map f).find? (key · == k) = if k ∈ ks then some (f k) else none := by
  have hcomp : (fun x => key x == k) ∘ f = fun m => m == k := by
    funext m
    rw [Function.comp_apply, hf]
  rw [List.find?_map, hcomp]
  cases hfind : ks.find? fun m => m == k with
  | none =>
      have hnot : k ∉ ks := fun hk => by simpa using List.find?_eq_none.1 hfind k hk
      rw [if_neg hnot, Option.map_none]
  | some m =>
      have hm : m = k := by simpa using List.find?_some hfind
      have hk : k ∈ ks := hm ▸ List.mem_of_find?_eq_some hfind
      rw [if_pos hk, hm, Option.map_some]

/-- Where no key stands twice, an entry is what the look-up of its key finds. -/
theorem lookup_of_mem_of_nodup {k : String} {v : β} :
    ∀ {table : List (String × β)}, (table.map Prod.fst).Nodup → (k, v) ∈ table →
      table.lookup k = some v
  | (k', v') :: table, hnodup, h => by
      obtain ⟨hfirst, hnodup⟩ := List.nodup_cons.1 hnodup
      rcases List.mem_cons.1 h with heq | hrest
      · cases heq
        exact List.lookup_cons_self
      · have hne : k ≠ k' := by
          rintro rfl
          exact hfirst (List.mem_map.2 ⟨(k, v), hrest, rfl⟩)
        rw [List.lookup_cons, beq_false_of_ne hne]
        exact lookup_of_mem_of_nodup hnodup hrest

/-- Only one member of a list without repetitions contributes. -/
theorem flatMap_of_unique {l : List α} {a : α} {f : α → List β} (hl : l.Nodup)
    (ha : a ∈ l) (hf : ∀ x ∈ l, x ≠ a → f x = []) : l.flatMap f = f a := by
  induction l with
  | nil => cases ha
  | cons x l ih =>
      obtain ⟨hx, hl⟩ := List.nodup_cons.1 hl
      rw [List.flatMap_cons]
      rcases List.mem_cons.1 ha with rfl | ha
      · have hrest : l.flatMap f = [] :=
          List.flatMap_eq_nil_iff.2 fun y hy =>
            hf y (List.mem_cons_of_mem _ hy) fun he => hx (he ▸ hy)
        rw [hrest, List.append_nil]
      · have hne : x ≠ a := fun he => hx (he ▸ ha)
        rw [hf x List.mem_cons_self hne, List.nil_append,
          ih hl ha fun y hy => hf y (List.mem_cons_of_mem x hy)]

/-! ## §2. Selections of mapped members. -/

/-- A selection of mapped members, written as one pass. -/
theorem map_filter_eq_filterMap (l : List α) (p : α → Bool) (f : α → β) :
    (l.filter p).map f = l.filterMap fun x => if p x then some (f x) else none := by
  rw [← List.filterMap_eq_map', List.filterMap_filter]

/-- What a selection takes over keys, it takes over in order. -/
theorem map_filterMap_sublist {κ : Type} {f : α → Option β} {key : α → κ} {key' : β → κ}
    (hf : ∀ x y, f x = some y → key' y = key x) (l : List α) :
    ((l.filterMap f).map key').Sublist (l.map key) := by
  induction l with
  | nil => exact .slnil
  | cons x l ih =>
      rw [List.map_cons]
      cases hx : f x with
      | none =>
          rw [List.filterMap_cons_none hx]
          exact ih.cons (key x)
      | some y =>
          rw [List.filterMap_cons_some hx, List.map_cons, hf x y hx]
          exact ih.cons_cons (key x)

/-! ## §3. Repetitions. -/

/-- One more element at the end leaves its last occurrence there. -/
theorem dedup_concat [DecidableEq α] (l : List α) (a : α) :
    (l ++ [a]).dedup = l.dedup.filter (· ≠ a) ++ [a] := by
  induction l with
  | nil => simp
  | cons x l ih =>
      rw [List.cons_append]
      by_cases hx : x ∈ l
      · rw [List.dedup_cons_of_mem (List.mem_append_left _ hx), List.dedup_cons_of_mem hx, ih]
      · by_cases ha : x = a
        · rw [List.dedup_cons_of_mem (by simp [ha]), List.dedup_cons_of_notMem hx, ih,
            List.filter_cons_of_neg (by simp [ha])]
        · rw [List.dedup_cons_of_notMem (by simp [ha, hx]), List.dedup_cons_of_notMem hx, ih,
            List.filter_cons_of_pos (by simp [ha]), List.cons_append]

/-- No member is left twice. -/
theorem nodup_eraseDups [BEq α] [LawfulBEq α] (l : List α) : l.eraseDups.Nodup := by
  match l with
  | [] => exact List.nodup_nil
  | a :: l =>
      rw [List.eraseDups_cons, List.nodup_cons]
      refine ⟨?_, nodup_eraseDups _⟩
      rw [List.mem_eraseDups]
      simp
termination_by l.length
decreasing_by exact Nat.lt_succ_of_le (List.length_filter_le _ _)

end ObjcBindings
