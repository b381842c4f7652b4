/-
  ObjcBindings.Proofs.SelectorTables
  ────────────────────────────────
  **THE SELECTOR TABLE HOLDS WHAT THE METHODS SEND.**

  The table of a module is made from all methods of its containers.  The bodies
  are written from the methods that are left when those that repeat an earlier
  one of their container are dropped:

      keys_selectors          — the table lists the selectors in ascending order
      methods_bindMethods     — the first method of each key stays, in order
      exists_bound_iff        — a dropped method takes no selector with it
      selectors_agree         — so every body finds its selector in the table,
                                and every entry of the table has a body
-/
import ObjcBindings.Proofs.DistinctNames
import ObjcBindings.Proofs.ListSelections
import Mathlib

namespace ObjcBindings

open Text

/-! ## §1. Methods that repeat an earlier one. -/

/-- Methods with the same key are sent alike: by selector, and to an instance or
to the class. -/
def Method.key (m : Method) : String × Bool := (m.selector, m.isInstance)

/-- The methods with a key that no method before them has, in order. -/
def firstMethods (methods : List Method) : List Method :=
  (methods.zipIdx.filter fun (m, i) => ∀ m' ∈ methods.take i, m'.key ≠ m.key).map Prod.fst

theorem distinctMethods_cons (seen : List (String × Bool)) (m : Method) (ms : List Method) :
    distinctMethods seen (m :: ms) =
      if m.key ∈ seen then distinctMethods seen ms
      else m :: distinctMethods (m.key :: seen) ms := rfl

/-- Left are the methods with a key that neither was seen before nor belongs to
a method before them. -/
theorem distinctMethods_eq (seen : List (String × Bool)) (methods : List Method) :
    distinctMethods seen methods = (methods.zipIdx.filter fun (m, i) =>
      m.key ∉ seen ∧ ∀ m' ∈ methods.take i, m'.key ≠ m.key).map Prod.fst := by
  induction methods generalizing seen with
  | nil => rfl
  | cons m ms ih =>
      rw [distinctMethods_cons, List.zipIdx_cons', List.filter_cons, List.filter_map]
      by_cases hseen : m.key ∈ seen
      · -- The method is dropped, and its key excludes no other method.
        rw [if_pos hseen, ih seen, if_neg (by simp [hseen]), List.map_map]
        refine congrArg₂ List.map rfl (List.filter_congr ?_)
        rintro ⟨x, i⟩ _
        simp only [Function.comp_apply, Prod.map_apply, id_eq, List.take_succ_cons,
          List.forall_mem_cons, decide_eq_decide]
        grind
      · -- The method stays, and its key counts as seen from here on.
        rw [if_neg hseen, ih (m.key :: seen), if_pos (by simp [hseen]), List.map_cons,
          List.map_map]
        refine congrArg (m :: ·) (congrArg₂ List.map rfl (List.filter_congr ?_))
        rintro ⟨x, i⟩ _
        simp only [Function.comp_apply, Prod.map_apply, id_eq, List.take_succ_cons,
          List.mem_cons]
        grind

/-- **Of the methods with one key the first is bound**, in order. -/
theorem methods_bindMethods (methods : List Method) :
    (bindMethods methods).map BoundMethod.method = firstMethods methods := by
  have hkept : distinctMethods [] methods = firstMethods methods := by
    rw [distinctMethods_eq, firstMethods]
    simp
  have hlen : (distinctMethods [] methods).length
      = (uniqueIdents (methodWishes methods)).length := by
    rw [length_uniqueIdents, methodWishes, List.length_map]
  show (List.zipWith _ _ (uniqueIdents (methodWishes methods))).map BoundMethod.method = _
  rw [← List.map_uncurry_zip_eq_zipWith, List.map_map, ← hkept]
  exact List.map_fst_zip hlen.le

/-- A bound method has a name for each of its parameters. -/
theorem length_params_of_mem_bindMethods {methods : List Method} {bound : BoundMethod}
    (h : bound ∈ bindMethods methods) : bound.params.length = bound.method.params.length := by
  rw [params_of_mem_bindMethods h, length_uniqueIdents, Method.paramWishes, List.length_map,
    List.length_zipIdx]

/-- A key that was not seen before stays with the first method that has it. -/
theorem exists_distinct_of_mem {m : Method} :
    ∀ {methods : List Method} {seen : List (String × Bool)}, m ∈ methods → m.key ∉ seen →
      ∃ m' ∈ distinctMethods seen methods, m'.key = m.key
  | x :: methods, seen, hm, hnew => by
      rw [distinctMethods_cons]
      by_cases hkey : x.key = m.key
      · rw [if_neg (show x.key ∉ seen from hkey ▸ hnew)]
        exact ⟨x, List.mem_cons_self, hkey⟩
      · have hrest : m ∈ methods := by
          rcases List.mem_cons.1 hm with rfl | hm
          · exact absurd rfl hkey
          · exact hm
        split
        · exact exists_distinct_of_mem hrest hnew
        · have hnew' : m.key ∉ x.key :: seen := by
            rw [List.mem_cons, not_or]
            exact ⟨Ne.symm hkey, hnew⟩
          obtain ⟨m', hm', hsame⟩ := exists_distinct_of_mem hrest hnew'
          exact ⟨m', List.mem_cons_of_mem x hm', hsame⟩

/-- **A dropped method takes no selector with it.** -/
theorem exists_bound_iff {methods : List Method} {selector : String} :
    (∃ bound ∈ bindMethods methods, bound.method.selector = selector) ↔
      ∃ m ∈ methods, m.selector = selector := by
  constructor
  · rintro ⟨bound, hbound, rfl⟩
    exact ⟨bound.method, method_of_mem_bindMethods hbound, rfl⟩
  · rintro ⟨m, hm, rfl⟩
    obtain ⟨m', hm', hkey⟩ := exists_distinct_of_mem hm (List.not_mem_nil (a := m.key))
    have hmethod : m' ∈ (bindMethods methods).map BoundMethod.method := by
      rw [methods_bindMethods]
      rw [distinctMethods_eq] at hm'
      simpa [firstMethods] using hm'
    obtain ⟨bound, hbound, rfl⟩ := List.mem_map.1 hmethod
    exact ⟨bound, hbound, congrArg Prod.fst hkey⟩

/-! ## §2. The table. -/

theorem keys_selectors (p : ModulePlan) :
    p.selectors.map Prod.fst
      = NameSet.ofList (p.containers.flatMap fun c => c.methods.map Method.selector) := by
  unfold ModulePlan.selectors selectorTable
  refine List.map_fst_zip ?_
  rw [length_uniqueIdents, List.length_map]

theorem mem_keys_selectors_iff {p : ModulePlan} {selector : String} :
    selector ∈ p.selectors.map Prod.fst ↔
      ∃ c ∈ p.containers, ∃ bound ∈ bindMethods c.methods, bound.method.selector = selector := by
  simp only [keys_selectors, NameSet.mem_ofList, List.mem_flatMap, List.mem_map, exists_bound_iff]

theorem lookup_of_mem_selectors {p : ModulePlan} {selector ident : String}
    (h : (selector, ident) ∈ p.selectors) : p.selectors.lookup selector = some ident := by
  refine lookup_of_mem_of_nodup ?_ h
  rw [keys_selectors]
  exact NameSet.nodup_ofList _

/-! ## §3. The theorem. -/

/-- **The table of a module and the bodies of its methods agree.**  Its keys are
the selectors of the bound methods, each once and in ascending order; every
bound method finds its selector there, and every entry is found by one.  What a
container binds are its first methods, with a name for each parameter. -/
theorem selectors_agree (p : ModulePlan) :
    (p.selectors.map Prod.fst).Pairwise (· < ·) ∧
    (∀ selector, selector ∈ p.selectors.map Prod.fst ↔
      ∃ c ∈ p.containers, ∃ bound ∈ bindMethods c.methods, bound.method.selector = selector) ∧
    (∀ c ∈ p.containers, ∀ bound ∈ bindMethods c.methods, ∃ ident,
      p.selectors.lookup bound.method.selector = some ident ∧
        p.selectors.ident bound.method.selector = ident) ∧
    (∀ entry ∈ p.selectors, ∃ c ∈ p.containers, ∃ bound ∈ bindMethods c.methods,
      bound.method.selector = entry.1 ∧
        p.selectors.lookup bound.method.selector = some entry.2) ∧
    (∀ c : Container, (bindMethods c.methods).map BoundMethod.method = firstMethods c.methods ∧
      ∀ bound ∈ bindMethods c.methods, bound.params.length = bound.method.params.length) := by
  refine ⟨?ascending, fun _ => mem_keys_selectors_iff, ?found, ?needed, ?bound⟩
  case ascending =>
    rw [keys_selectors]
    exact (NameSet.foldl_add_spec _ List.Pairwise.nil).1
  case found =>
    -- A key has an entry, and with distinct keys the look-up finds just that one.
    intro c hc bound hbound
    have hkey := mem_keys_selectors_iff.2 ⟨c, hc, bound, hbound, rfl⟩
    obtain ⟨⟨selector, ident⟩, hentry, heq⟩ := List.mem_map.1 hkey
    have hlookup : p.selectors.lookup bound.method.selector = some ident :=
      heq ▸ lookup_of_mem_selectors hentry
    refine ⟨ident, hlookup, ?_⟩
    rw [SelectorTable.ident, hlookup, Option.getD_some]
  case needed =>
    rintro ⟨selector, ident⟩ hentry
    obtain ⟨c, hc, bound, hbound, rfl⟩ :=
      mem_keys_selectors_iff.1 (List.mem_map_of_mem (f := Prod.fst) hentry)
    exact ⟨c, hc, bound, hbound, rfl, lookup_of_mem_selectors hentry⟩
  case bound =>
    exact fun c => ⟨methods_bindMethods c.methods, fun _ => length_params_of_mem_bindMethods⟩

/-- A method that comes twice, and one selector of an instance and of the
class. -/
def copyMethods : List Method :=
  [.ofNames "copy:" true ["zone"], .ofNames "new" false [], .ofNames "copy:" true ["other"],
   .ofNames "new" true []]

/-- The repetition is dropped; the entry of its selector is found by the method
that stays. -/
theorem copy_selectors_agree :
    ("copy:", "copy_") ∈ (ModulePlan.ofMethods copyMethods).selectors ∧
    firstMethods copyMethods = [.ofNames "copy:" true ["zone"], .ofNames "new" false [],
      .ofNames "new" true []] ∧
    ∃ bound ∈ bindMethods copyMethods, bound.method ∈ firstMethods copyMethods ∧
      (ModulePlan.ofMethods copyMethods).selectors.lookup bound.method.selector = some "copy_" ∧
      bound.params.length = bound.method.params.length := by
  obtain ⟨_, _, _, hneeded, hbound⟩ := selectors_agree (.ofMethods copyMethods)
  have hentry : ("copy:", "copy_") ∈ (ModulePlan.ofMethods copyMethods).selectors := by
    decide +kernel
  obtain ⟨c, hc, bound, hmem, _, hlookup⟩ := hneeded _ hentry
  obtain ⟨hkept, hparams⟩ := hbound c
  obtain rfl := List.mem_singleton.1 hc
  refine ⟨hentry, by decide +kernel, bound, hmem, ?_, hlookup, hparams bound hmem⟩
  exact hkept ▸ List.mem_map_of_mem hmem

end ObjcBindings
