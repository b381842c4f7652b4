/-
  ObjcBindings.Proofs.ModuleNames
  ────────────────────────────────
  **WHAT MODULES ARE CALLED.**

  A rule names a module by a group of its pattern or by a text of its own, and
  the name is made of lower-case letters, digits and underscores.  It is written
  as it is, in front of the module and in every path to it.  A keyword is made
  of lower-case letters, too, and is let through:

      …/Type.framework/Headers/…h   ↦   pub mod type

  Main results:
    • `isModuleName_moduleName` — whatever the text, its module name is a word,
    • `moduleName_eq_self_iff` — and the words are what stays as it is,
    • `isReserved_moduleName_iff` — which texts become a keyword,
    • `modules_of_bindings` — the modules of the bindings have their names from
      declarations and are opened under them,
    • `moduleOf_usable_iff` — so the name of a declaration's module is usable
      unless the text that a rule found spells a keyword.
-/
import ObjcBindings.Proofs.Emission
import Mathlib

namespace ObjcBindings

open Text

namespace Text.Ident

/-! ## §1. Words. -/

/-- A lower-case letter, a digit or an underscore. -/
def IsModuleChar (c : Char) : Prop :=
  c.isLower = true ∨ c.isDigit = true ∨ c = '_'

/-- A word of such characters that does not start with a digit. -/
structure IsModuleName (name : String) : Prop where
  nonempty : name.toList ≠ []
  chars : ∀ c ∈ name.toList, IsModuleChar c
  start : ∀ c ∈ name.toList.head?, c.isDigit = false

/-- A digit is no letter. -/
theorem isAlpha_eq_false_of_isDigit {c : Char} (h : c.isDigit = true) : c.isAlpha = false := by
  simp only [Char.isAlpha, Char.isUpper, Char.isLower, Char.isDigit, UInt32.le_iff_toNat_le,
    ge_iff_le, Bool.and_eq_true, Bool.or_eq_false_iff, Bool.and_eq_false_iff,
    decide_eq_true_eq, decide_eq_false_iff_not] at h ⊢
  have hnine : ('9'.val : UInt32).toNat = 57 := rfl
  have hupper : ('A'.val : UInt32).toNat = 65 := rfl
  have hlower : ('a'.val : UInt32).toNat = 97 := rfl
  omega

/-- A digit has no other case. -/
theorem toLower_of_isDigit {c : Char} (h : c.isDigit = true) : c.toLower = c := by
  have halpha := isAlpha_eq_false_of_isDigit h
  rw [Char.isAlpha, Bool.or_eq_false_iff] at halpha
  exact Char.toLower_eq_of_not_isUpper (Bool.eq_false_iff.1 halpha.1)

/-- Every character is replaced by one for module names. -/
theorem isModuleChar_moduleChar (c : Char) : IsModuleChar (moduleChar c) := by
  unfold moduleChar
  split
  · next h =>
    rcases Bool.or_eq_true_iff.1 h with halpha | hdigit
    · exact .inl (c.isLower_toLower_eq_isAlpha.trans halpha)
    · rw [toLower_of_isDigit hdigit]
      exact .inr (.inl hdigit)
  · exact .inr (.inr rfl)

/-- Letters and digits stay such. -/
theorem isAlphanum_moduleChar (c : Char) : (moduleChar c).isAlphanum = c.isAlphanum := by
  unfold moduleChar
  split
  · next h =>
    rcases Bool.or_eq_true_iff.1 h with halpha | hdigit
    · rw [h, Char.isAlphanum, c.isAlpha_toLower_eq_isAlpha, halpha, Bool.true_or]
    · rw [toLower_of_isDigit hdigit]
  · next h =>
    rw [Bool.eq_false_iff.2 h]
    rfl

/-- Only other characters are replaced by an underscore. -/
theorem moduleChar_eq_underscore_iff {c : Char} : moduleChar c = '_' ↔ c.isAlphanum = false := by
  constructor
  · intro h
    rw [← isAlphanum_moduleChar, h]
    rfl
  · intro h
    rw [moduleChar, if_neg (Bool.eq_false_iff.1 h)]

/-- A character for module names stays. -/
theorem moduleChar_of_isModuleChar {c : Char} (h : IsModuleChar c) : moduleChar c = c := by
  unfold moduleChar
  rcases h with hlower | hdigit | rfl
  · rw [if_pos (by simp [Char.isAlphanum, Char.isAlpha, hlower])]
    exact Char.toLower_eq_of_not_isUpper (Char.not_isUpper_of_isLower hlower)
  · rw [if_pos (by simp [Char.isAlphanum, hdigit]), toLower_of_isDigit hdigit]
  · rfl

/-- The three ways a text becomes a module name: there is nothing to take over,
or the first character decides whether an underscore is put in front. -/
theorem moduleName_cases (text : String) :
    text.toList = [] ∧ (moduleName text).toList = ['_'] ∨
    (∃ c ∈ (text.toList.map moduleChar).head?, c.isDigit = true ∧
      (moduleName text).toList = '_' :: text.toList.map moduleChar) ∨
    (∃ c ∈ (text.toList.map moduleChar).head?, c.isDigit = false ∧
      (moduleName text).toList = text.toList.map moduleChar) := by
  unfold moduleName
  dsimp only
  split
  · next h => exact .inl ⟨List.map_eq_nil_iff.1 h, rfl⟩
  · next c cs h =>
    have hhead : c ∈ (text.toList.map moduleChar).head? := by
      rw [h]
      rfl
    rw [String.toList_ofList]
    cases hdigit : c.isDigit with
    | true => exact .inr (.inl ⟨c, hhead, hdigit, rfl⟩)
    | false => exact .inr (.inr ⟨c, hhead, hdigit, rfl⟩)

/-- **Whatever the text, its module name is a word.** -/
theorem isModuleName_moduleName (text : String) : IsModuleName (moduleName text) := by
  have hchars : ∀ c ∈ text.toList.map moduleChar, IsModuleChar c := by
    intro c hc
    obtain ⟨c', _, rfl⟩ := List.mem_map.1 hc
    exact isModuleChar_moduleChar c'
  have hbar : IsModuleChar '_' := .inr (.inr rfl)
  obtain ⟨_, h⟩ | ⟨_, _, _, h⟩ | ⟨c, hc, hdigit, h⟩ := moduleName_cases text
  · refine ⟨?_, ?_, ?_⟩ <;> rw [h]
    · exact List.cons_ne_nil _ _
    · simpa using hbar
    · simp
  · refine ⟨?_, ?_, ?_⟩ <;> rw [h]
    · exact List.cons_ne_nil _ _
    · exact List.forall_mem_cons.2 ⟨hbar, hchars⟩
    · simp
  · refine ⟨?_, ?_, ?_⟩ <;> rw [h]
    · rintro hnil
      rw [hnil] at hc
      cases hc
    · exact hchars
    · intro d hd
      exact Option.mem_unique hc hd ▸ hdigit

/-- **The words are what stays as it is.** -/
theorem moduleName_eq_self_iff {name : String} : moduleName name = name ↔ IsModuleName name := by
  constructor
  · intro h
    exact h ▸ isModuleName_moduleName name
  · intro ⟨hne, hchars, hstart⟩
    have hmap : name.toList.map moduleChar = name.toList :=
      (List.map_congr_left fun c hc => moduleChar_of_isModuleChar (hchars c hc)).trans
        (List.map_id _)
    refine String.toList_injective ?_
    obtain ⟨hnil, _⟩ | ⟨c, hc, hdigit, _⟩ | ⟨_, _, _, h⟩ := moduleName_cases name
    · exact absurd hnil hne
    · rw [hmap] at hc
      rw [hstart c hc] at hdigit
      cases hdigit
    · rw [h, hmap]

/-! ## §2. Keywords. -/

/-- The name means something else where a name is expected. -/
def IsReserved (name : String) : Prop := name ∈ keywords ∨ name ∈ pathKeywords

instance (name : String) : Decidable (IsReserved name) :=
  inferInstanceAs (Decidable (name ∈ keywords ∨ name ∈ pathKeywords))

/-- The names that have to be made usable are the reserved ones. -/
theorem escape_eq_self_iff {name : String} : escape name = name ↔ ¬ IsReserved name := by
  unfold escape IsReserved
  split
  · next h =>
    refine iff_of_false (fun heq => ?_) (not_not_intro (.inr h))
    have hlen := congrArg String.length heq
    simp at hlen
  · next h =>
    split
    · next hk =>
      refine iff_of_false (fun heq => ?_) (not_not_intro (.inl hk))
      have hlen := congrArg String.length heq
      simp at hlen
    · next hk => exact iff_of_true rfl (not_or.2 ⟨hk, h⟩)

/-- At most one character, and that neither a letter nor a digit. -/
def IsBare (text : String) : Prop :=
  text.toList.length ≤ 1 ∧ ∀ c ∈ text.toList, c.isAlphanum = false

instance (text : String) : Decidable (IsBare text) :=
  inferInstanceAs (Decidable (_ ∧ _))

/-- Up to letter case the text is a keyword, or there is nothing to make a name
from. -/
def SpellsReserved (text : String) : Prop := IsReserved (asciiLower text) ∨ IsBare text

instance (text : String) : Decidable (SpellsReserved text) :=
  inferInstanceAs (Decidable (_ ∨ _))

/-- A reserved name is made of lower-case letters, but for the underscore and
the one with a capital. -/
theorem isReserved_cases {name : String} (h : IsReserved name) :
    name = "_" ∨ name = "Self" ∨ name.toList ≠ [] ∧ ∀ c ∈ name.toList, c.isLower = true := by
  have hall : (keywords ++ pathKeywords).all (fun k =>
      k = "_" || k = "Self" || (k.toList ≠ [] && k.toList.all Char.isLower)) = true := by
    decide +kernel
  simpa [or_assoc] using List.all_eq_true.1 hall name (List.mem_append.2 h)

/-- A word of letters is the module name of the texts that are it up to letter
case. -/
theorem moduleName_eq_iff_of_isLower {text name : String} (hne : name.toList ≠ [])
    (hlower : ∀ c ∈ name.toList, c.isLower = true) :
    moduleName text = name ↔ asciiLower text = name := by
  have hbar : '_' ∉ name.toList := fun h => absurd (hlower _ h) (by decide)
  constructor
  · rintro rfl
    obtain ⟨_, h⟩ | ⟨_, _, _, h⟩ | ⟨_, _, _, h⟩ := moduleName_cases text
    · exact absurd (h ▸ List.mem_cons_self) hbar
    · exact absurd (h ▸ List.mem_cons_self) hbar
    · refine String.toList_injective ?_
      rw [h, asciiLower, String.toList_ofList]
      refine List.map_congr_left fun c hc => ?_
      have hletter := hlower (moduleChar c) (h ▸ List.mem_map_of_mem hc)
      -- Only a letter or digit becomes a letter.
      unfold moduleChar at hletter ⊢
      split
      · rfl
      · next hother =>
        rw [if_neg hother] at hletter
        exact absurd hletter (by decide)
  · rintro rfl
    rw [asciiLower, String.toList_ofList] at hne hlower
    have hmap : text.toList.map moduleChar = text.toList.map Char.toLower := by
      refine List.map_congr_left fun c hc => ?_
      have halpha := hlower c.toLower (List.mem_map_of_mem hc)
      rw [c.isLower_toLower_eq_isAlpha] at halpha
      rw [moduleChar, if_pos (by rw [Char.isAlphanum, halpha, Bool.true_or])]
    obtain ⟨hnil, _⟩ | ⟨c, hc, hdigit, _⟩ | ⟨_, _, _, h⟩ := moduleName_cases text
    · exact absurd (List.map_eq_nil_iff.2 hnil) hne
    · have hletter := hlower c (List.mem_of_mem_head? (hmap ▸ hc))
      have halpha := isAlpha_eq_false_of_isDigit hdigit
      rw [Char.isAlpha, hletter, Bool.or_true] at halpha
      cases halpha
    · refine String.toList_injective ?_
      rw [h, hmap, asciiLower, String.toList_ofList]

/-- The underscore alone is the module name of the texts that give nothing to
make a name from. -/
theorem moduleName_eq_underscore_iff {text : String} : moduleName text = "_" ↔ IsBare text := by
  rw [← String.toList_inj, show "_".toList = ['_'] from rfl]
  have hempty : text.toList = [] → IsBare text := fun h => ⟨by simp [h], by simp [h]⟩
  obtain ⟨hnil, h⟩ | ⟨c, hc, hdigit, h⟩ | ⟨c, hc, _, h⟩ := moduleName_cases text
  · exact iff_of_true h (hempty hnil)
  · -- A digit is something to make a name from.
    refine iff_of_false (fun heq => ?_) (fun hbare => ?_)
    · rw [h, List.cons_eq_cons] at heq
      rw [heq.2] at hc
      cases hc
    · obtain ⟨c', hc', rfl⟩ := List.mem_map.1 (List.mem_of_mem_head? hc)
      have hnone := hbare.2 c' hc'
      rw [← isAlphanum_moduleChar, Char.isAlphanum, hdigit, Bool.or_true] at hnone
      cases hnone
  · rw [h, List.map_eq_singleton_iff]
    constructor
    · rintro ⟨c', htext, hbar⟩
      refine ⟨by simp [htext], fun x hx => ?_⟩
      rw [htext, List.mem_singleton] at hx
      exact hx ▸ moduleChar_eq_underscore_iff.1 hbar
    · rintro ⟨hlen, hother⟩
      cases htext : text.toList with
      | nil =>
          rw [htext] at hc
          cases hc
      | cons x xs =>
          rw [htext, List.length_cons] at hlen
          obtain rfl : xs = [] := List.eq_nil_of_length_eq_zero (by omega)
          have hx := hother x (by rw [htext]; exact List.mem_cons_self)
          exact ⟨x, rfl, moduleChar_eq_underscore_iff.2 hx⟩

/-- Only the underscore has the underscore as its lower case. -/
theorem isBare_of_asciiLower {text : String} (h : asciiLower text = "_") : IsBare text := by
  rw [← String.toList_inj, asciiLower, String.toList_ofList, show "_".toList = ['_'] from rfl,
    List.map_eq_singleton_iff] at h
  obtain ⟨c, htext, hbar⟩ := h
  have hother : c.isAlphanum = false := by
    have halpha := c.isAlpha_toLower_eq_isAlpha
    rw [hbar] at halpha
    rw [Char.isAlphanum, ← halpha, Bool.or_eq_false_iff]
    refine ⟨rfl, Bool.eq_false_iff.2 fun hdigit => ?_⟩
    rw [toLower_of_isDigit hdigit] at hbar
    rw [hbar] at hdigit
    cases hdigit
  refine ⟨by simp [htext], fun x hx => ?_⟩
  rw [htext, List.mem_singleton] at hx
  exact hx ▸ hother

/-- Lower case has no capital. -/
theorem asciiLower_ne_self {text : String} : asciiLower text ≠ "Self" := by
  intro h
  have hcapital : 'S' ∈ (asciiLower text).toList := by
    rw [h]
    decide
  rw [asciiLower, String.toList_ofList] at hcapital
  obtain ⟨c, _, hc⟩ := List.mem_map.1 hcapital
  have hlower := c.isUpper_toLower_eq_false
  rw [hc] at hlower
  cases hlower

/-- **The texts that become a reserved name** are those that spell one. -/
theorem isReserved_moduleName_iff {text : String} :
    IsReserved (moduleName text) ↔ SpellsReserved text := by
  constructor
  · intro h
    rcases isReserved_cases h with hbar | hself | ⟨hne, hlower⟩
    · exact .inr (moduleName_eq_underscore_iff.1 hbar)
    · -- A module name has no capital.
      have hcapital := (isModuleName_moduleName text).chars 'S' (by rw [hself]; decide)
      exact absurd hcapital (by unfold IsModuleChar; decide)
    · have htext := (moduleName_eq_iff_of_isLower hne hlower).1 rfl
      exact .inl (htext ▸ h)
  · have hbare : IsBare text → IsReserved (moduleName text) := fun h => by
      rw [moduleName_eq_underscore_iff.2 h]
      decide
    rintro (h | h)
    · rcases isReserved_cases h with hbar | hself | ⟨hne, hlower⟩
      · exact hbare (isBare_of_asciiLower hbar)
      · exact absurd hself asciiLower_ne_self
      · rwa [(moduleName_eq_iff_of_isLower hne hlower).2 rfl]
    · exact hbare h

end Text.Ident

/-! ## §3. Declarations. -/

namespace Layout

/-- What the first rule that says anything about the path calls its module. -/
def named? (rules : List ModuleRule) (path : String) : Option String :=
  (rules ++ builtinRules).findSome? (·.moduleFor? path)

variable {rules : List ModuleRule} {d : Decl} {name : String}

/-- A declaration has its module from a rule or from the front end. -/
theorem moduleOf_eq_ok (h : moduleOf rules d = .ok name) :
    (∃ path text, d.file? = some path ∧ named? rules path = some text ∧
      name = Ident.moduleName text) ∨ (d.file? = none ∧ name = coreModule) := by
  unfold moduleOf at h
  split at h
  · next path hpath =>
    unfold moduleOfPath at h
    split at h
    · next text htext =>
      cases h
      exact .inl ⟨path, text, hpath, htext, rfl⟩
    · cases h
  · next hpath =>
    split at h
    · cases h
      exact .inr ⟨hpath, rfl⟩
    · cases h

/-- The module of a declaration has the name of one. -/
theorem isModuleName_of_moduleOf (h : moduleOf rules d = .ok name) : Ident.IsModuleName name := by
  obtain ⟨_, text, _, _, rfl⟩ | ⟨_, rfl⟩ := moduleOf_eq_ok h
  · exact Ident.isModuleName_moduleName text
  · exact Ident.moduleName_eq_self_iff.1 (by decide)

/-- The module is called by a keyword if the rule's text spells one. -/
theorem isReserved_of_moduleOf (h : moduleOf rules d = .ok name) :
    Ident.IsReserved name ↔
      ∃ path text, d.file? = some path ∧ named? rules path = some text ∧
        Ident.SpellsReserved text := by
  obtain ⟨path, text, hpath, htext, rfl⟩ | ⟨hpath, rfl⟩ := moduleOf_eq_ok h
  · rw [Ident.isReserved_moduleName_iff]
    constructor
    · intro hspells
      exact ⟨path, text, hpath, htext, hspells⟩
    · rintro ⟨path', text', hpath', htext', hspells⟩
      cases hpath.symm.trans hpath'
      cases htext.symm.trans htext'
      exact hspells
  · refine iff_of_false (by decide) ?_
    rintro ⟨_, _, hpath', _⟩
    cases hpath.symm.trans hpath'

end Layout

/-! ## §4. Modules. -/

namespace Scope

variable {s : Scope}

/-- The module of a plan has its name from a declaration, but for the core
module. -/
theorem moduleOf_of_plan {plan : Plan} (hs : s.WellFormed) (hplan : s.plan = .ok plan)
    {p : ModulePlan} (hp : p ∈ plan.modules) :
    p.name = coreModule ∨ ∃ d, s.moduleOf d = .ok p.name := by
  obtain ⟨homes, _⟩ := plan_eq_ok hs hplan
  have hname := Text.NameSet.mem_ofList.1 ((modules_of_plan hs hplan).name_mem hp)
  rw [List.cons_append, List.mem_cons, List.mem_append, List.mem_map, List.mem_map] at hname
  rcases hname with hcore | ⟨placed, hplaced, hname⟩ | ⟨placed, hplaced, hname⟩
  · exact .inl hcore
  · refine .inr ?_
    rw [← hname]
    rcases List.mem_append.1 hplaced with hplaced | hplaced
    · -- Definitions, and the structs that are only announced.
      obtain ⟨d, hd, hplaced⟩ := List.mem_filterMap.1 hplaced
      obtain ⟨item, hitem, rfl⟩ := Option.map_eq_some_iff.1 hplaced
      exact ⟨d, homes.items d hd (Option.isSome_of_eq_some hitem)⟩
    · obtain ⟨d, hd, rfl⟩ := List.mem_map.1 hplaced
      exact ⟨d, homes.announced d hd⟩
  · refine .inr ?_
    rw [← hname]
    obtain ⟨d, hd, hplaced⟩ := List.mem_filterMap.1 hplaced
    obtain ⟨cls, hcls, rfl⟩ := Option.map_eq_some_iff.1 hplaced
    exact ⟨d, homes.categories d hd (Option.isSome_of_eq_some hcls)⟩

/-- The code of a module opens it under its name. -/
theorem opens_of_moduleCode {p : ModulePlan} {code : String} (h : s.moduleCode p = .ok code) :
    ∃ body, code = "pub mod " ++ p.name ++ " \x7b\n" ++ body := by
  obtain ⟨items, _, h⟩ := bind_eq_ok_iff.1 h
  cases h
  simp only [block, enclosed, String.append_assoc]
  exact ⟨_, rfl⟩

end Scope

/-- What a pass collects comes from some step. -/
theorem mem_of_collect {α β : Type} {f : α → Except Failure β} {y : β} :
    ∀ {xs : List α} {ys : List β}, collect f xs = .ok ys → y ∈ ys → ∃ x ∈ xs, f x = .ok y
  | [], ys, h, hy => by
      cases h
      cases hy
  | x :: xs, ys, h, hy => by
      obtain ⟨first, hfirst, h⟩ := bind_eq_ok_iff.1 h
      obtain ⟨rest, hrest, h⟩ := bind_eq_ok_iff.1 h
      cases h
      rcases List.mem_cons.1 hy with rfl | hy
      · exact ⟨x, List.mem_cons_self, hfirst⟩
      · obtain ⟨x', hx', hf⟩ := mem_of_collect hrest hy
        exact ⟨x', List.mem_cons_of_mem _ hx', hf⟩

/-- **Every module of the bindings is opened under its name**, which a
declaration has from the rules or is that of the core module. -/
theorem modules_of_bindings {unit : TranslationUnit} {rules : List ModuleRule}
    {header : Option String} {src : Source} (h : unit.bindings rules header = .ok src)
    {m : ModuleSource} (hm : m ∈ src.modules) :
    (m.name = coreModule ∨ ∃ d, Layout.moduleOf rules d = .ok m.name) ∧
      ∃ body, m.code = "pub mod " ++ m.name ++ " \x7b\n" ++ body := by
  obtain ⟨s, hs, h⟩ := bind_eq_ok_iff.1 h
  obtain ⟨plan, hplan, h⟩ := bind_eq_ok_iff.1 h
  obtain ⟨modules, hmodules, h⟩ := bind_eq_ok_iff.1 h
  cases h
  obtain ⟨p, hp, hsource⟩ := mem_of_collect hmodules hm
  obtain ⟨code, hcode, rfl⟩ := map_eq_ok_iff.1 hsource
  refine ⟨?_, Scope.opens_of_moduleCode hcode⟩
  obtain ⟨_, _, hrules, _⟩ := Scope.ofUnit_eq_ok hs
  have hname := Scope.moduleOf_of_plan (Scope.wellFormed_of_ofUnit hs) hplan
    (Scope.mem_listing_iff.1 hp)
  simpa only [Scope.moduleOf, hrules] using hname

/-- **The name of a declaration's module is usable unless the text that a rule
found spells a keyword.**  It is a word that making it a module name again
would not change, the module is opened under it and other modules write it in
their paths; it stands for itself there unless the rule's text is a keyword up
to letter case or gives nothing to make a name from. -/
theorem moduleOf_usable_iff {rules : List ModuleRule} {d : Decl} {name : String}
    (h : Layout.moduleOf rules d = .ok name) :
    Ident.IsModuleName name ∧ Ident.moduleName name = name ∧
    (Ident.escape name = name ↔
      ∀ path text, d.file? = some path → Layout.named? rules path = some text →
        ¬ Ident.SpellsReserved text) ∧
    (∀ (unit : TranslationUnit) (header : Option String) (src : Source),
      unit.bindings rules header = .ok src → ∀ m ∈ src.modules, m.name = name →
        ∃ body, m.code = "pub mod " ++ name ++ " \x7b\n" ++ body) ∧
    (∀ s : Scope, s.rules = rules → ∀ ident current, current ≠ name →
      s.qualify ident d current = .ok ("super::" ++ name ++ "::" ++ ident)) := by
  have hword := Layout.isModuleName_of_moduleOf h
  refine ⟨hword, Ident.moduleName_eq_self_iff.2 hword, ?_, ?_, ?_⟩
  · rw [Ident.escape_eq_self_iff, Layout.isReserved_of_moduleOf h]
    push Not
    rfl
  · rintro unit header src hsrc m hm rfl
    exact (modules_of_bindings hsrc hm).2
  · rintro s rfl ident current hne
    have hmodule : s.moduleOf d = .ok name := h
    rw [Scope.qualify, hmodule]
    simp only [qualifyIn, if_neg (Ne.symm hne)]

/-- A declaration of a framework's header. -/
def protocolAt (path : String) : Decl where
  usr := "c:objc(pl)Kind"
  name := "Kind"
  location := some ⟨path, none⟩
  isImplicit := false
  isReferenced := false
  isForward := false
  kind := .protocol [] []

/-- A rule that finds more than a word still leads to one. -/
def overlayRules : List ModuleRule :=
  [⟨.seq (Pattern.literal "/overlay/") (.group 1 Layout.component), .capture⟩]

/-- What follows the dash stays apart, and nothing in the name needs a mark. -/
theorem overlay_usable :
    Layout.moduleOf overlayRules (protocolAt "/overlay/App-Kit/Kind.h") = .ok "app_kit" ∧
    Ident.IsModuleName "app_kit" ∧ Ident.escape "app_kit" = "app_kit" ∧
    ¬ Ident.SpellsReserved "App-Kit" ∧
    ∀ ident, (Scope.mk ⟨[], []⟩ {} overlayRules []).qualify ident
      (protocolAt "/overlay/App-Kit/Kind.h") "core"
        = .ok ("super::" ++ "app_kit" ++ "::" ++ ident) := by
  have hmodule : Layout.moduleOf overlayRules (protocolAt "/overlay/App-Kit/Kind.h")
      = .ok "app_kit" := by decide +kernel
  have hescape : Ident.escape "app_kit" = "app_kit" := by decide +kernel
  have htext : Layout.named? overlayRules "/overlay/App-Kit/Kind.h" = some "App-Kit" := by
    decide +kernel
  obtain ⟨hword, _, husable, _, hpath⟩ := moduleOf_usable_iff hmodule
  exact ⟨hmodule, hword, hescape, husable.1 hescape _ _ rfl htext,
    fun ident => hpath _ rfl ident "core" (by decide)⟩

/-- **A framework with the name of a keyword**: its module is opened under a
keyword that would have to be marked, and a rule with nothing but a question
mark leads to a module that has no name at all. -/
theorem type_module_reserved :
    Layout.moduleOf [] (protocolAt "/System/Library/Frameworks/Type.framework/Headers/Kind.h")
      = .ok "type" ∧
    Ident.escape "type" = "r#type" ∧
    (TranslationUnit.bindings
        ⟨[protocolAt "/System/Library/Frameworks/Type.framework/Headers/Kind.h"]⟩ [] none).map
      (·.modules.map ModuleSource.name) = .ok ["core", "type"] ∧
    Layout.moduleOf [⟨.start, .fixed "?"⟩] (protocolAt "/Kind.h") = .ok "_" := by
  refine ⟨?_, ?_, ?_, ?_⟩ <;> decide +kernel

end ObjcBindings
