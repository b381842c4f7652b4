/-
  ObjcBindings.Proofs.DistinctNames
  ────────────────────────────────
  **WHEN NO TWO GENERATED NAMES ARE ALIKE.**

  A name is counted up until it is free.  The candidates of a wish are pairwise
  distinct, so one of them is: the names that are chosen never collide.  But
  they are compared before keywords among them are made usable, and that step
  can bring two of them together:

      self, self_   ↦   self_, self_

  Main results:
    • `nodup_uniqueNames` — the names that are chosen are distinct,
    • `escape_eq_escape_iff` — only a keyword that gets an underscore can meet
      another name, and only the one that has it already,
    • `nodup_uniqueIdents_iff` — so what is written is distinct exactly if no
      such keyword is wished for together with its longer form.
-/
import ObjcBindings.Proofs.Emission
import Mathlib

namespace ObjcBindings

open Text

/-! ## §1. The candidates of a wish. -/

/-- No two candidates are the same name. -/
theorem nameCandidate_injective (wish : String) : Function.Injective (nameCandidate wish) := by
  have hlonger : ∀ k, wish ≠ nameCandidate wish (k + 1) := by
    intro k h
    have hlen := congrArg String.length h
    simp only [nameCandidate, String.length_append] at hlen
    have hone : "_".length = 1 := rfl
    omega
  intro i j h
  cases i with
  | zero =>
      cases j with
      | zero => rfl
      | succ j => exact absurd h (hlonger j)
  | succ i =>
      cases j with
      | zero => exact absurd h.symm (hlonger i)
      | succ j =>
          have hdigits : (i + 2).repr = (j + 2).repr := (String.append_right_inj _).1 h
          have hnumber := Nat.repr_inj.1 hdigits
          omega

/-- Every candidate but the first ends in a digit. -/
def endsInDigit (name : String) : Bool :=
  name.toList.getLast?.any Char.isDigit

/-- A number is written in digits. -/
theorem mem_toList_repr {n : Nat} {c : Char} (h : c ∈ n.repr.toList) : c.isDigit = true := by
  rw [Nat.toList_repr] at h
  exact Nat.isDigit_of_mem_toDigits (by omega) (by omega) h

/-- All candidates but the first end in a digit. -/
theorem endsInDigit_nameCandidate (wish : String) (k : Nat) :
    endsInDigit (nameCandidate wish (k + 1)) = true := by
  have hne : (k + 2).repr.toList ≠ [] := by
    rw [Nat.toList_repr]
    exact Nat.toDigits_ne_nil
  have hlast : (nameCandidate wish (k + 1)).toList.getLast?
      = some ((k + 2).repr.toList.getLast hne) := by
    show (wish ++ "_" ++ (k + 2).repr).toList.getLast? = _
    rw [String.toList_append, List.getLast?_append, List.getLast?_eq_some_getLast hne,
      Option.some_or]
  rw [endsInDigit, hlast, Option.any_some]
  exact mem_toList_repr (List.getLast_mem hne)

/-- A search that ends at a taken candidate has passed taken ones only. -/
theorem mem_of_firstFreeFrom_mem {wish : String} {taken : List String} :
    ∀ {tries k : Nat}, firstFreeFrom wish taken tries k ∈ taken →
      ∀ i ≤ tries, nameCandidate wish (k + i) ∈ taken
  | 0, k, h, i, hi => by
      obtain rfl : i = 0 := by omega
      exact h
  | tries + 1, k, h, i, hi => by
      unfold firstFreeFrom at h
      split at h
      · next hk =>
        cases i with
        | zero => exact hk
        | succ i =>
            have hlater := mem_of_firstFreeFrom_mem h i (by omega)
            rwa [Nat.add_right_comm] at hlater
      · next hk => exact absurd h hk

/-- **The first free candidate is free**: there are more candidates than taken
names. -/
theorem firstFree_not_mem (wish : String) (taken : List String) :
    firstFree wish taken ∉ taken := by
  intro h
  have hall := mem_of_firstFreeFrom_mem h
  have hsub : (List.range (taken.length + 1)).map (nameCandidate wish) ⊆ taken := by
    intro name hname
    obtain ⟨i, hi, rfl⟩ := List.mem_map.1 hname
    have hmem := hall i (by simpa [Nat.lt_succ_iff] using hi)
    rwa [Nat.zero_add] at hmem
  have hlen := (List.nodup_range.map (nameCandidate_injective wish)).length_le_of_subset hsub
  rw [List.length_map, List.length_range] at hlen
  omega

/-- The search for a free name stays among the candidates. -/
theorem firstFreeFrom_eq_candidate (wish : String) (taken : List String) :
    ∀ tries k : Nat, ∃ i, firstFreeFrom wish taken tries k = nameCandidate wish i
  | 0, k => ⟨k, rfl⟩
  | tries + 1, k => by
      unfold firstFreeFrom
      split
      · exact firstFreeFrom_eq_candidate wish taken tries (k + 1)
      · exact ⟨k, rfl⟩

/-- A wish that is free comes true. -/
theorem firstFree_of_not_mem {wish : String} {taken : List String} (h : wish ∉ taken) :
    firstFree wish taken = wish := by
  unfold firstFree
  cases taken.length with
  | zero => rfl
  | succ n => exact if_neg h

/-! ## §2. Names for many wishes. -/

/-- There is one name for each wish. -/
theorem length_uniqueNames :
    ∀ (taken wishes : List String), (uniqueNames taken wishes).length = wishes.length
  | _, [] => rfl
  | taken, wish :: wishes => by
      rw [uniqueNames, List.length_cons, length_uniqueNames, List.length_cons]

/-- No name is one that was taken. -/
theorem not_mem_of_mem_uniqueNames {name : String} :
    ∀ {wishes taken : List String}, name ∈ uniqueNames taken wishes → name ∉ taken
  | wish :: wishes, taken, h => by
      rcases List.mem_cons.1 h with rfl | h
      · exact firstFree_not_mem wish taken
      · intro hmem
        exact not_mem_of_mem_uniqueNames h (List.mem_cons_of_mem _ hmem)

/-- **The names that are chosen are distinct.** -/
theorem nodup_uniqueNames : ∀ taken wishes : List String, (uniqueNames taken wishes).Nodup
  | _, [] => List.nodup_nil
  | taken, wish :: wishes => by
      refine List.nodup_cons.2 ⟨fun h => ?_, nodup_uniqueNames _ wishes⟩
      exact not_mem_of_mem_uniqueNames h List.mem_cons_self

/-- A chosen name is the candidate of a wish. -/
theorem candidate_of_mem_uniqueNames {name : String} :
    ∀ {wishes taken : List String}, name ∈ uniqueNames taken wishes →
      ∃ wish ∈ wishes, ∃ k, name = nameCandidate wish k
  | wish :: wishes, taken, h => by
      rcases List.mem_cons.1 h with rfl | h
      · obtain ⟨k, hk⟩ := firstFreeFrom_eq_candidate wish taken taken.length 0
        exact ⟨wish, List.mem_cons_self, k, hk⟩
      · obtain ⟨wish', hwish', k, hk⟩ := candidate_of_mem_uniqueNames h
        exact ⟨wish', List.mem_cons_of_mem wish hwish', k, hk⟩

/-- The first who wishes for a free name gets it. -/
theorem mem_uniqueNames_of_mem {name : String} :
    ∀ {wishes taken : List String}, name ∈ wishes → name ∉ taken →
      name ∈ uniqueNames taken wishes
  | wish :: wishes, taken, h, hfree => by
      by_cases hfirst : name = firstFree wish taken
      · exact hfirst ▸ List.mem_cons_self
      · have hrest : name ∈ wishes := by
          rcases List.mem_cons.1 h with rfl | h
          · exact absurd (firstFree_of_not_mem hfree).symm hfirst
          · exact h
        refine List.mem_cons_of_mem _ (mem_uniqueNames_of_mem hrest fun hmem => ?_)
        rcases List.mem_cons.1 hmem with h | h
        · exact hfirst h
        · exact hfree h

/-- A name without a number at its end is chosen exactly if it is wished for. -/
theorem mem_uniqueNames_iff {name : String} {wishes : List String}
    (h : endsInDigit name = false) : name ∈ uniqueNames [] wishes ↔ name ∈ wishes := by
  refine ⟨fun hmem => ?_, fun hmem => mem_uniqueNames_of_mem hmem List.not_mem_nil⟩
  obtain ⟨wish, hwish, k, rfl⟩ := candidate_of_mem_uniqueNames hmem
  cases k with
  | zero => exact hwish
  | succ k =>
      rw [endsInDigit_nameCandidate] at h
      cases h

/-! ## §3. Keywords. -/

namespace Text.Ident

/-- The mark of raw identifiers does not occur in the name. -/
def IsUnmarked (name : String) : Prop := '#' ∉ name.toList

instance (name : String) : Decidable (IsUnmarked name) :=
  inferInstanceAs (Decidable ('#' ∉ name.toList))

/-- A keyword that cannot be a raw identifier is among the names, together with
the form it is written in. -/
def Clash (names : List String) : Prop :=
  ∃ k ∈ pathKeywords, k ∈ names ∧ k ++ "_" ∈ names

instance (names : List String) : Decidable (Clash names) :=
  inferInstanceAs (Decidable (∃ k ∈ pathKeywords, k ∈ names ∧ k ++ "_" ∈ names))

/-- Two texts in a row are unmarked if both are. -/
theorem isUnmarked_append {a b : String} :
    IsUnmarked (a ++ b) ↔ IsUnmarked a ∧ IsUnmarked b := by
  unfold IsUnmarked
  rw [String.toList_append, List.mem_append, not_or]

/-- What a keyword that cannot be a raw identifier is written as is no
keyword. -/
theorem escape_append_of_mem {k : String} (h : k ∈ pathKeywords) :
    escape (k ++ "_") = k ++ "_" ∧ escape k = k ++ "_" ∧ k ≠ k ++ "_" := by
  revert k
  decide

/-- No number stands at the end of such a keyword or of its written form. -/
theorem endsInDigit_of_mem {k : String} (h : k ∈ pathKeywords) :
    endsInDigit k = false ∧ endsInDigit (k ++ "_") = false := by
  revert k
  decide

/-- The three ways a name is written. -/
theorem escape_cases (name : String) :
    name ∈ pathKeywords ∧ escape name = name ++ "_"
      ∨ escape name = "r#" ++ name
      ∨ escape name = name := by
  unfold escape
  split
  · next h => exact .inl ⟨h, rfl⟩
  · split
    · exact .inr (.inl rfl)
    · exact .inr (.inr rfl)

/-- A name with the mark of keywords in front is marked. -/
theorem not_isUnmarked_raw (name : String) : ¬ IsUnmarked ("r#" ++ name) := by
  intro h
  exact absurd (isUnmarked_append.1 h).1 (by decide)

/-- **Two names are written alike only if one is a keyword and the other has
the keyword's underscore already.** -/
theorem escape_eq_escape_iff {a b : String} (ha : IsUnmarked a) (hb : IsUnmarked b) :
    escape a = escape b ↔
      a = b ∨ (a ∈ pathKeywords ∧ b = a ++ "_") ∨ (b ∈ pathKeywords ∧ a = b ++ "_") := by
  have hbar : IsUnmarked "_" := by decide
  constructor
  · intro h
    rcases escape_cases a with ⟨hka, hea⟩ | hea | hea <;>
      rcases escape_cases b with ⟨hkb, heb⟩ | heb | heb <;> rw [hea, heb] at h
    · exact .inl ((String.append_left_inj _).1 h)
    · -- A raw identifier carries its mark, and nothing else does.
      exact absurd (h ▸ isUnmarked_append.2 ⟨ha, hbar⟩) (not_isUnmarked_raw b)
    · exact .inr (.inl ⟨hka, h.symm⟩)
    · exact absurd (h ▸ isUnmarked_append.2 ⟨hb, hbar⟩) (not_isUnmarked_raw a)
    · exact .inl ((String.append_right_inj _).1 h)
    · exact absurd (h ▸ hb) (not_isUnmarked_raw a)
    · exact .inr (.inr ⟨hkb, h⟩)
    · exact absurd (h ▸ ha) (not_isUnmarked_raw b)
    · exact .inl h
  · rintro (rfl | ⟨hk, rfl⟩ | ⟨hk, rfl⟩)
    · rfl
    · obtain ⟨hlong, hshort, _⟩ := escape_append_of_mem hk
      rw [hlong, hshort]
    · obtain ⟨hlong, hshort, _⟩ := escape_append_of_mem hk
      rw [hlong, hshort]

/-- Distinct names stay distinct exactly if no keyword meets its written
form. -/
theorem nodup_map_escape_iff {names : List String} (hnodup : names.Nodup)
    (hunmarked : ∀ name ∈ names, IsUnmarked name) :
    (names.map escape).Nodup ↔ ¬ Clash names := by
  rw [List.nodup_map_iff_inj_on hnodup]
  constructor
  · rintro hinj ⟨k, hk, hshort, hlong⟩
    obtain ⟨helong, heshort, hne⟩ := escape_append_of_mem hk
    exact hne (hinj k hshort _ hlong (heshort.trans helong.symm))
  · intro hno a ha b hb h
    rcases (escape_eq_escape_iff (hunmarked a ha) (hunmarked b hb)).1 h with
      h | ⟨hk, rfl⟩ | ⟨hk, rfl⟩
    · exact h
    · exact absurd ⟨a, hk, ha, hb⟩ hno
    · exact absurd ⟨b, hk, hb, ha⟩ hno

end Text.Ident

open Text.Ident (IsUnmarked Clash)

/-- Numbers are unmarked. -/
theorem isUnmarked_repr (n : Nat) : IsUnmarked n.repr := by
  intro h
  have hdigit := mem_toList_repr h
  revert hdigit
  decide

/-- The candidates of an unmarked wish are unmarked. -/
theorem isUnmarked_nameCandidate {wish : String} (h : IsUnmarked wish) :
    ∀ k, IsUnmarked (nameCandidate wish k)
  | 0 => h
  | k + 1 => Ident.isUnmarked_append.2
      ⟨Ident.isUnmarked_append.2 ⟨h, by decide⟩, isUnmarked_repr (k + 2)⟩

/-- **What is written for the wishes is distinct exactly if they hold no keyword
together with its written form.** -/
theorem nodup_uniqueIdents_iff {wishes : List String} (h : ∀ wish ∈ wishes, IsUnmarked wish) :
    (uniqueIdents wishes).Nodup ↔ ¬ Clash wishes := by
  have hunmarked : ∀ name ∈ uniqueNames [] wishes, IsUnmarked name := by
    intro name hname
    obtain ⟨wish, hwish, k, rfl⟩ := candidate_of_mem_uniqueNames hname
    exact isUnmarked_nameCandidate (h wish hwish) k
  rw [uniqueIdents, Ident.nodup_map_escape_iff (nodup_uniqueNames [] wishes) hunmarked]
  -- Neither a keyword nor its written form is ever the result of counting up.
  have hclash : Clash (uniqueNames [] wishes) ↔ Clash wishes := by
    refine exists_congr fun k => and_congr_right fun hk => ?_
    obtain ⟨hshort, hlong⟩ := Ident.endsInDigit_of_mem hk
    rw [mem_uniqueNames_iff hshort, mem_uniqueNames_iff hlong]
  rw [hclash]

/-! ## §4. Methods, parameters and selectors. -/

/-- The mark of raw identifiers occurs in no name of the method. -/
structure Method.IsUnmarked (m : Method) : Prop where
  selector : Ident.IsUnmarked m.selector
  params : ∀ p ∈ m.params, Ident.IsUnmarked p.name

instance (m : Method) : Decidable m.IsUnmarked :=
  decidable_of_iff (Ident.IsUnmarked m.selector ∧ ∀ p ∈ m.params, Ident.IsUnmarked p.name)
    ⟨fun h => ⟨h.1, h.2⟩, fun h => ⟨h.selector, h.params⟩⟩

/-- The names that the methods of one pair of traits ask for. -/
def methodWishes (methods : List Method) : List String :=
  (distinctMethods [] methods).map
    (Method.wish ((methods.filter Method.isInstance).map (Ident.ofSelector ·.selector)))

/-- The names that the parameters of a method ask for. -/
def Method.paramWishes (m : Method) : List String :=
  m.params.zipIdx.map fun (p, i) => p.wish i

/-- The names that the selectors of a module ask for. -/
def ModulePlan.selectorWishes (p : ModulePlan) : List String :=
  (p.containers.flatMap fun c => c.methods.map Method.selector).map Ident.ofSelector

/-- Identifiers that are made of unmarked selectors are unmarked. -/
theorem isUnmarked_ofSelector {selector : String} (h : Ident.IsUnmarked selector) :
    Ident.IsUnmarked (Ident.ofSelector selector) := by
  unfold Ident.ofSelector Ident.IsUnmarked
  rw [String.toList_ofList]
  intro hmem
  obtain ⟨c, hc, he⟩ := List.mem_map.1 hmem
  split at he
  · cases he
  · exact h (he ▸ hc)

/-- An unmarked method wishes for an unmarked name. -/
theorem Method.IsUnmarked.wish {m : Method} (h : m.IsUnmarked) (instanceNames : List String) :
    Ident.IsUnmarked (m.wish instanceNames) := by
  have hname := isUnmarked_ofSelector h.selector
  unfold Method.wish
  dsimp only
  split
  · exact Ident.isUnmarked_append.2 ⟨by decide, hname⟩
  · exact hname

theorem isUnmarked_paramWish {p : Param} (h : Ident.IsUnmarked p.name) (i : Nat) :
    Ident.IsUnmarked (p.wish i) := by
  unfold Param.wish
  split
  · exact Ident.isUnmarked_append.2 ⟨by decide, isUnmarked_repr i⟩
  · split
    · exact Ident.isUnmarked_append.2 ⟨h, by decide⟩
    · exact h

/-- There is one identifier for each wish. -/
theorem length_uniqueIdents (wishes : List String) :
    (uniqueIdents wishes).length = wishes.length := by
  rw [uniqueIdents, List.length_map, length_uniqueNames]

/-- The methods of one pair of traits go under the names that were found for
their wishes. -/
theorem names_bindMethods (methods : List Method) :
    (bindMethods methods).map BoundMethod.name = uniqueIdents (methodWishes methods) := by
  have hlen : (distinctMethods [] methods).length
      = (uniqueIdents (methodWishes methods)).length := by
    rw [length_uniqueIdents, methodWishes, List.length_map]
  show (List.zipWith _ _ (uniqueIdents (methodWishes methods))).map BoundMethod.name = _
  rw [← List.map_uncurry_zip_eq_zipWith, List.map_map]
  exact List.map_snd_zip hlen.ge

/-- A bound method has the distinct names of its parameters. -/
theorem params_of_mem_bindMethods {methods : List Method} {bound : BoundMethod}
    (h : bound ∈ bindMethods methods) : bound.params = uniqueIdents bound.method.paramWishes := by
  unfold bindMethods at h
  rw [← List.map_uncurry_zip_eq_zipWith] at h
  obtain ⟨x, _, rfl⟩ := List.mem_map.1 h
  rfl

/-- The selectors of a module go under the names that were found for their
wishes. -/
theorem idents_selectors (p : ModulePlan) :
    p.selectors.map Prod.snd = uniqueIdents ((NameSet.ofList
      (p.containers.flatMap fun c => c.methods.map Method.selector)).map Ident.ofSelector) := by
  unfold ModulePlan.selectors selectorTable
  refine List.map_snd_zip ?_
  rw [length_uniqueIdents, List.length_map]

/-- The wishes of selectors, by membership. -/
theorem mem_selectorWishes_iff {p : ModulePlan} {name : String} :
    name ∈ (NameSet.ofList (p.containers.flatMap fun c =>
      c.methods.map Method.selector)).map Ident.ofSelector ↔ name ∈ p.selectorWishes := by
  simp only [ModulePlan.selectorWishes, List.mem_map, NameSet.mem_ofList]

/-- **Generated names are distinct exactly if no keyword is asked for together
with its written form**: the methods of one pair of traits, the parameters of
each of them, and the selectors of a module. -/
theorem generated_names_nodup_iff (methods : List Method) (p : ModulePlan)
    (hmethods : ∀ m ∈ methods, m.IsUnmarked)
    (hplan : ∀ c ∈ p.containers, ∀ m ∈ c.methods, m.IsUnmarked) :
    (((bindMethods methods).map BoundMethod.name).Nodup ↔ ¬ Clash (methodWishes methods)) ∧
    (∀ bound ∈ bindMethods methods,
      bound.params.Nodup ↔ ¬ Clash bound.method.paramWishes) ∧
    ((p.selectors.map Prod.snd).Nodup ↔ ¬ Clash p.selectorWishes) := by
  refine ⟨?names, ?params, ?selectors⟩
  case names =>
    rw [names_bindMethods]
    refine nodup_uniqueIdents_iff fun wish hwish => ?_
    obtain ⟨m, hm, rfl⟩ := List.mem_map.1 hwish
    exact (hmethods m (mem_of_mem_distinctMethods hm)).wish _
  case params =>
    intro bound hbound
    rw [params_of_mem_bindMethods hbound]
    refine nodup_uniqueIdents_iff fun wish hwish => ?_
    obtain ⟨⟨param, i⟩, hparam, rfl⟩ := List.mem_map.1 hwish
    have hmethod := hmethods _ (method_of_mem_bindMethods hbound)
    exact isUnmarked_paramWish (hmethod.params param (List.fst_mem_of_mem_zipIdx hparam)) i
  case selectors =>
    rw [idents_selectors, nodup_uniqueIdents_iff]
    · exact not_congr (exists_congr fun k => by rw [mem_selectorWishes_iff, mem_selectorWishes_iff])
    · intro wish hwish
      obtain ⟨selector, hselector, rfl⟩ := List.mem_map.1 (mem_selectorWishes_iff.1 hwish)
      obtain ⟨c, hc, hselector⟩ := List.mem_flatMap.1 hselector
      obtain ⟨m, hm, rfl⟩ := List.mem_map.1 hselector
      exact isUnmarked_ofSelector (hplan c hc m hm).selector

/-! ## §5. Small containers. -/

/-- A method with parameters of the names, all of them numbers. -/
def Method.ofNames (selector : String) (isInstance : Bool) (params : List String) : Method where
  selector := selector
  isInstance := isInstance
  params := params.map (⟨·, .builtin "Int", false⟩)
  result := .builtin "Void"
  isVariadic := false
  family := none
  control := none
  attrs := ⟨false, false⟩

/-- The module of one interface with the methods. -/
def ModulePlan.ofMethods (methods : List Method) : ModulePlan where
  name := "ui"
  interfaces :=
    [{ kind := .interface, decl := .implicit "c:Box" "Box" (.interface [] [] none [])
       ownerModule := "ui", superclass := none, methods, protocols := [] }]

/-- Selectors that ask for one name, a keyword, and a class method that makes
way. -/
def foldMethods : List Method :=
  [.ofNames "fold:" true ["type", "type", ""], .ofNames "fold_" true ["arg0", ""],
   .ofNames "type" true [], .ofNames "type" false []]

/-- Their names are distinct, counted up where they have to be. -/
theorem fold_names_nodup :
    ((∀ m ∈ foldMethods, m.IsUnmarked) ∧
      ∀ c ∈ (ModulePlan.ofMethods foldMethods).containers, ∀ m ∈ c.methods, m.IsUnmarked) ∧
    ((bindMethods foldMethods).map BoundMethod.name).Nodup ∧
    (∀ bound ∈ bindMethods foldMethods, bound.params.Nodup) ∧
    ((ModulePlan.ofMethods foldMethods).selectors.map Prod.snd).Nodup := by
  have hmethods : ∀ m ∈ foldMethods, m.IsUnmarked := by decide +kernel
  have hplan : ∀ c ∈ (ModulePlan.ofMethods foldMethods).containers, ∀ m ∈ c.methods,
      m.IsUnmarked := by
    intro c hc
    obtain rfl := List.mem_singleton.1 hc
    exact hmethods
  obtain ⟨hnames, hparams, hselectors⟩ := generated_names_nodup_iff foldMethods _ hmethods hplan
  have hparamWishes : ∀ m ∈ foldMethods, ¬ Clash m.paramWishes := by decide +kernel
  refine ⟨⟨hmethods, hplan⟩, hnames.2 (by decide +kernel), fun bound hbound => ?_,
    hselectors.2 (by decide +kernel)⟩
  exact (hparams bound hbound).2 (hparamWishes _ (method_of_mem_bindMethods hbound))

/-- The receiver of a message as a selector and as a parameter. -/
def receiverMethods : List Method :=
  [.ofNames "self" true [], .ofNames "self:" true ["value"],
   .ofNames "put:in:" true ["self", "self_"]]

/-- **Two methods, two parameters and two selectors under one name**: the
keyword gets the underscore that the other has already. -/
theorem receiver_names_collide :
    (∀ m ∈ receiverMethods, m.IsUnmarked) ∧
    ¬ ((bindMethods receiverMethods).map BoundMethod.name).Nodup ∧
    (∃ bound ∈ bindMethods receiverMethods, ¬ bound.params.Nodup) ∧
    ¬ ((ModulePlan.ofMethods receiverMethods).selectors.map Prod.snd).Nodup := by
  have hmethods : ∀ m ∈ receiverMethods, m.IsUnmarked := by decide +kernel
  have hnames : (bindMethods receiverMethods).map BoundMethod.name
      = ["self_", "self_", "put_in_"] := by decide +kernel
  have hparams : ∃ bound ∈ bindMethods receiverMethods, bound.params = ["self_", "self_"] := by
    decide +kernel
  have hselectors : (ModulePlan.ofMethods receiverMethods).selectors
      = [("put:in:", "put_in_"), ("self", "self_"), ("self:", "self_")] := by decide +kernel
  refine ⟨hmethods, ?_, ?_, ?_⟩
  · rw [hnames]
    decide
  · obtain ⟨bound, hbound, hp⟩ := hparams
    refine ⟨bound, hbound, ?_⟩
    rw [hp]
    decide
  · rw [hselectors]
    decide

end ObjcBindings
