/-
  ObjcBindings.Proofs.TypeNames
  ────────────────────────────────
  **WHEN TWO TYPES OF A MODULE GO UNDER ONE NAME.**

  The name of a struct, enum or typedef has one of three origins: a tag's own
  spelling, a typedef, or a USR.  C keeps typedefs and tags apart, and each
  kind distinct within a module; the generated code has one namespace for
  both.  What the rules of C leave open is exactly this:

      namespaces   — a tag has the name that a typedef gives to another type
      foreign      — the naming typedef belongs to another module
      nameless     — a name made of a USR is not unique
      keyword      — a keyword meets its written form
-/
import ObjcBindings.Proofs.DistinctNames
import ObjcBindings.Proofs.StructLayout
import Mathlib

namespace ObjcBindings

open Text

/-! ## §1. The rules of C. -/

/-- The declaration is a record or an enum. -/
def Decl.isTag (d : Decl) : Bool :=
  match d.kind with
  | .record _ _ | .enum _ _ _ => true
  | _ => false

/-- The declaration is a typedef. -/
def Decl.isTypedef (d : Decl) : Bool :=
  match d.kind with
  | .typedef _ => true
  | _ => false

/-- The name is one that C gives: a typedef has one, a tag may lack it. -/
def Decl.hasName (d : Decl) : Bool :=
  d.isTypedef || (d.isTag && !Ident.isAnonymous d.name)

/-- The rules put both declarations into one module. -/
def ModuleRule.putTogether (rules : List ModuleRule) (a b : Decl) : Bool :=
  match Layout.moduleOf rules a, Layout.moduleOf rules b with
  | .ok m, .ok n => m == n
  | _, _ => false

/-- Within a module, typedefs of one name are one, and so are tags; the mark of
raw identifiers occurs in no name. -/
structure TranslationUnit.KeepsNamesApart (unit : TranslationUnit) (rules : List ModuleRule) :
    Prop where
  typedefs : ∀ a ∈ unit.children, ∀ b ∈ unit.children, a.isTypedef = true → b.isTypedef = true →
    ModuleRule.putTogether rules a b = true → a.name = b.name → a.usr = b.usr
  tags : ∀ a ∈ unit.children, ∀ b ∈ unit.children, a.isTag = true → b.isTag = true →
    Ident.isAnonymous a.name = false →
    ModuleRule.putTogether rules a b = true → a.name = b.name → a.usr = b.usr
  unmarked : ∀ d ∈ unit.children, d.hasName = true → Ident.IsUnmarked d.name

/-! ## §2. Origins of names. -/

/-- Where the name of a type comes from. -/
inductive NameOrigin where
  /-- The spelling of the tag itself. -/
  | tag
  | typedef (d : Decl)
  | usr

/-- The structs, enums and typedefs of a module. -/
def ModulePlan.types (p : ModulePlan) : List Decl :=
  p.structs.map StructPlan.decl ++ p.aliases

namespace Scope

/-- The name that a typedef or enum of a module is written under. -/
def aliasName (s : Scope) (d : Decl) : String :=
  match d.kind with
  | .typedef _ => Ident.escape d.name
  | _ => s.tagName d

/-- The names that the structs, enums and typedefs of a module are written
under. -/
def typeNames (s : Scope) (p : ModulePlan) : List String :=
  p.structs.map (s.tagName ·.decl) ++ p.aliases.map s.aliasName

/-- Where the name of a struct, enum or typedef comes from. -/
def origin (s : Scope) (d : Decl) : NameOrigin :=
  if d.isTypedef then .typedef d
  else match s.tagNames.lookup d.usr with
    | some t => .typedef t
    | none => if Ident.isAnonymous d.name then .usr else .tag

/-- The name of a struct, enum or typedef before keywords are made usable. -/
def plainName (s : Scope) (d : Decl) : String :=
  match s.origin d with
  | .tag => d.name
  | .typedef t => t.name
  | .usr => Ident.ofUsr d.usr

/-- Two types of a module go under one name, where the rules of C allow it. -/
inductive Collision (s : Scope) (p : ModulePlan) : Prop where
  | namespaces {a b t : Decl} (left : a ∈ p.types) (right : b ∈ p.types)
      (tag : s.origin a = .tag) (typedef : s.origin b = .typedef t)
      (alike : s.plainName a = s.plainName b)
  | foreign {a b t : Decl} (left : a ∈ p.types) (right : b ∈ p.types) (distinct : a ≠ b)
      (typedef : s.origin a = .typedef t) (away : s.moduleOf t ≠ .ok p.name)
      (alike : s.plainName a = s.plainName b)
  | nameless {a b : Decl} (left : a ∈ p.types) (right : b ∈ p.types) (distinct : a ≠ b)
      (usr : s.origin a = .usr) (alike : s.plainName a = s.plainName b)
  | keyword (clash : Ident.Clash (p.types.map s.plainName))

end Scope

/-- A name made of a USR is no keyword. -/
theorem escape_ofUsr (usr : Usr) : Ident.escape (Ident.ofUsr usr) = Ident.ofUsr usr := by
  have hhead : (Ident.ofUsr usr).toList.head? = some 'A' := by
    unfold Ident.ofUsr
    rw [String.toList_append]
    rfl
  have hkeywords : ∀ k ∈ Ident.pathKeywords ++ Ident.keywords, k.toList.head? ≠ some 'A' := by
    decide
  have hno : Ident.ofUsr usr ∉ Ident.pathKeywords ++ Ident.keywords :=
    fun hmem => hkeywords _ hmem hhead
  rw [List.mem_append, not_or] at hno
  rw [Ident.escape, if_neg hno.1, if_neg hno.2]

/-- Runs of other characters leave only underscores. -/
theorem mem_squeeze {c : Char} :
    ∀ {cs : List Char}, c ∈ Ident.squeeze cs → c.isAlphanum = true ∨ c = '_'
  | [], h => by cases h
  | d :: ds, h => by
      have ih := @mem_squeeze c ds
      unfold Ident.squeeze at h
      grind

/-- Names that are made of USRs are unmarked. -/
theorem isUnmarked_ofUsr (usr : Usr) : Ident.IsUnmarked (Ident.ofUsr usr) := by
  refine Ident.isUnmarked_append.2 ⟨by decide, fun hmem => ?_⟩
  rw [String.toList_ofList, dropEndWhile, List.mem_reverse] at hmem
  have hback := List.mem_reverse.1 ((List.dropWhile_sublist _).subset hmem)
  have hmark := mem_squeeze ((List.dropWhile_sublist _).subset hback)
  revert hmark
  decide

/-! ## §3. The types of a module. -/

namespace Scope

variable {unit : TranslationUnit} {rules : List ModuleRule} {s : Scope} {plan : Plan}
  {p : ModulePlan} {a b d t : Decl}

/-- A record is a tag. -/
theorem isTag_of_record {fields : List Decl} {tag : TagKind} (h : d.kind = .record fields tag) :
    d.isTag = true := by
  rw [Decl.isTag, h]

/-- A tag is no typedef. -/
theorem not_isTypedef_of_isTag (h : d.isTag = true) : d.isTypedef = false := by
  cases hk : d.kind <;> simp_all [Decl.isTag, Decl.isTypedef]

/-- A struct of a module is a record at home there, defined or announced. -/
theorem struct_of_plan (hs : s.WellFormed) (hplan : s.plan = .ok plan) (hp : p ∈ plan.modules)
    {st : StructPlan} (hst : st ∈ p.structs) :
    s.table.find? st.decl.usr = some st.decl ∧ s.moduleOf st.decl = .ok p.name ∧
      ∃ fields tag, st.decl.kind = .record fields tag := by
  have hm := modules_of_plan hs hplan
  obtain ⟨homes, _⟩ := plan_eq_ok hs hplan
  obtain ⟨hfind, hhome⟩ := find?_of_mem_structs hs hm hp hst
  rw [(hm.finished p hp).structs, mem_draft_structs] at hst
  obtain ⟨_, ⟨hd, hitem⟩ | ⟨hd, _⟩⟩ := hst
  · have hused : s.used.Has (.struct st.decl.usr) := (item?_eq_struct hitem).2.1
    obtain ⟨_, hopens, _⟩ := (Table.surveys_of_followContainers hs.used).opened hused (by simp)
    cases hopens with
    | struct found kind _ =>
        obtain rfl := Option.some.inj ((Table.find_eq_ok_iff.1 found).symm.trans hfind)
        exact ⟨hfind, hhome ▸ homes.items _ hd (by simp [hitem]), _, _, kind⟩
  · obtain ⟨usr, hused, hstub⟩ := List.mem_filterMap.1 hd
    have hrecorded : s.used.Has (.struct usr) := hused
    obtain ⟨_, hopens, _⟩ := (Table.surveys_of_followContainers hs.used).opened hrecorded (by simp)
    cases hopens with
    | struct found kind _ =>
        obtain rfl := Option.some.inj
          ((Table.find_eq_ok_iff.1 found).symm.trans (stub?_eq_some hstub).1)
        exact ⟨hfind, hhome ▸ homes.announced _ hd, _, _, kind⟩

/-- An alias of a module is an enum at home there, or a typedef that is not
merged with its tag. -/
theorem alias_of_plan (hs : s.WellFormed) (hplan : s.plan = .ok plan) (hp : p ∈ plan.modules)
    (hd : d ∈ p.aliases) :
    d ∈ s.table.definitions ∧ s.moduleOf d = .ok p.name ∧
      ((∃ integerType isClosed enumerators, d.kind = .enum integerType isClosed enumerators)
        ∨ (∃ type, d.kind = .typedef type) ∧ s.isMerged d.usr = false) := by
  have hm := modules_of_plan hs hplan
  obtain ⟨homes, _⟩ := plan_eq_ok hs hplan
  rw [(hm.finished p hp).aliases, mem_draft_aliases] at hd
  obtain ⟨hdef, hhome, hitem⟩ := hd
  refine ⟨hdef, hhome ▸ homes.items d hdef (by simp [hitem]), ?_⟩
  cases hk : d.kind with
  | typedef type => exact .inr ⟨⟨type, rfl⟩, ((item?_typedef_iff hk).1 hitem).2.2.1⟩
  | enum integerType isClosed enumerators => exact .inl ⟨_, _, _, rfl⟩
  | record fields tag =>
      simp only [item?, hk] at hitem
      split at hitem <;> cases hitem
  | _ => simp [item?, hk] at hitem

/-- A type of a module is what its USR leads to, is at home there, and is a tag
or a typedef that is not merged with its tag. -/
theorem type_of_plan (hs : s.WellFormed) (hplan : s.plan = .ok plan) (hp : p ∈ plan.modules)
    (hd : d ∈ p.types) :
    s.table.find? d.usr = some d ∧ s.moduleOf d = .ok p.name ∧
      (d.isTag = true ∨
        d.isTypedef = true ∧ d ∈ s.table.definitions ∧ s.isMerged d.usr = false) := by
  rcases List.mem_append.1 hd with hd | hd
  · obtain ⟨st, hst, rfl⟩ := List.mem_map.1 hd
    obtain ⟨hfind, hmodule, _, _, hk⟩ := struct_of_plan hs hplan hp hst
    exact ⟨hfind, hmodule, .inl (isTag_of_record hk)⟩
  · obtain ⟨hdef, hmodule, ⟨_, _, _, hk⟩ | ⟨⟨_, hk⟩, hseparate⟩⟩ := alias_of_plan hs hplan hp hd
    · exact ⟨hs.table.find?_of_mem hdef, hmodule, .inl (by rw [Decl.isTag, hk])⟩
    · exact ⟨hs.table.find?_of_mem hdef, hmodule,
        .inr ⟨by rw [Decl.isTypedef, hk], hdef, hseparate⟩⟩

/-- No alias of a module is listed twice. -/
theorem nodup_draft_aliases (hs : s.WellFormed) (name : String) :
    (s.draft name).aliases.Nodup := by
  refine List.Nodup.of_map Decl.usr (hs.table.distinct.sublist ?_)
  show ((((s.placements.filter (·.module == name)).map Placed.item).filterMap _).map _).Sublist _
  rw [filterMap_items_of_definitions fun _ => rfl]
  refine map_filterMap_sublist (fun d x h => ?_) _
  split at h
  · obtain ⟨item, hitem, h⟩ := Option.bind_eq_some_iff.1 h
    split at h
    · cases h
      rw [item?_eq_alias hitem]
    · cases h
  · cases h

/-- No type of a module is listed twice. -/
theorem nodup_types (hs : s.WellFormed) (hplan : s.plan = .ok plan) (hp : p ∈ plan.modules) :
    p.types.Nodup := by
  have hm := modules_of_plan hs hplan
  have hstructs : (p.structs.map StructPlan.decl).Nodup := by
    refine List.Nodup.of_map Decl.usr ?_
    rw [List.map_map, (hm.finished p hp).structs]
    exact nodup_draft_structs hs p.name
  have haliases : p.aliases.Nodup := by
    rw [(hm.finished p hp).aliases]
    exact nodup_draft_aliases hs p.name
  refine List.nodup_append.2 ⟨hstructs, haliases, ?_⟩
  rintro a ha _ hb rfl
  obtain ⟨st, hst, rfl⟩ := List.mem_map.1 ha
  obtain ⟨_, _, _, _, hk⟩ := struct_of_plan hs hplan hp hst
  -- A struct is a record, and no alias is.
  obtain ⟨_, _, ⟨_, _, _, hk'⟩ | ⟨⟨_, hk'⟩, _⟩⟩ := alias_of_plan hs hplan hp hb
  · rw [hk] at hk'
    cases hk'
  · rw [hk] at hk'
    cases hk'

/-! ## §4. What the rules of C rule out. -/

/-- A typedef is written under its own name. -/
theorem origin_of_isTypedef (h : d.isTypedef = true) : s.origin d = .typedef d := by
  rw [origin, if_pos h]

/-- A tag is written under the name of its typedef, or its own, or its USR. -/
theorem origin_of_isTag (h : d.isTag = true) :
    s.origin d = match s.tagNames.lookup d.usr with
      | some t => .typedef t
      | none => if Ident.isAnonymous d.name then .usr else .tag := by
  rw [origin, if_neg (by simp [not_isTypedef_of_isTag h])]

/-- A tag is written under its plain name. -/
theorem tagName_eq_escape (h : d.isTag = true) : s.tagName d = Ident.escape (s.plainName d) := by
  rw [plainName, origin_of_isTag h, tagName, canonicalName?]
  cases s.tagNames.lookup d.usr with
  | some t => rfl
  | none =>
      cases Ident.isAnonymous d.name with
      | true => exact (escape_ofUsr d.usr).symm
      | false => rfl

/-- All types of a module are written under their plain names. -/
theorem typeNames_eq (hs : s.WellFormed) (hplan : s.plan = .ok plan) (hp : p ∈ plan.modules) :
    s.typeNames p = (p.types.map s.plainName).map Ident.escape := by
  rw [typeNames, ModulePlan.types, List.map_append, List.map_append, List.map_map, List.map_map,
    List.map_map]
  congr 1
  · refine List.map_congr_left fun st hst => ?_
    obtain ⟨_, _, _, _, hk⟩ := struct_of_plan hs hplan hp hst
    exact tagName_eq_escape (isTag_of_record hk)
  · refine List.map_congr_left fun d hd => ?_
    show s.aliasName d = Ident.escape (s.plainName d)
    obtain ⟨_, _, ⟨_, _, _, hk⟩ | ⟨⟨_, hk⟩, _⟩⟩ := alias_of_plan hs hplan hp hd
    · rw [aliasName, hk]
      exact tagName_eq_escape (by rw [Decl.isTag, hk])
    · rw [aliasName, hk, plainName, origin_of_isTypedef (by rw [Decl.isTypedef, hk])]

/-- What a look-up finds stands in the list. -/
theorem mem_tagNames_of_lookup {usr : Usr} (h : s.tagNames.lookup usr = some t) :
    (usr, t) ∈ s.tagNames := by
  obtain ⟨before, after, hsplit, _⟩ := List.lookup_eq_some_iff.1 h
  rw [hsplit]
  exact List.mem_append_right _ List.mem_cons_self

/-- A typedef that gives a tag its name is a definition that names the tag. -/
theorem namer_of_lookup (hs : s.WellFormed) {usr : Usr} (h : s.tagNames.lookup usr = some t) :
    t ∈ s.table.definitions ∧ t.isTypedef = true ∧ s.table.namedTag? t = some usr := by
  have hmem := mem_tagNames_of_lookup h
  rw [hs.tagNames, Table.tagNames] at hmem
  obtain ⟨x, hx, hnamed⟩ := List.mem_filterMap.1 hmem
  obtain ⟨tag, htag, he⟩ := Option.map_eq_some_iff.1 hnamed
  cases he
  refine ⟨hx, ?_, htag⟩
  unfold Table.namedTag? at htag
  split at htag
  · next hk => rw [Decl.isTypedef, hk]
  · cases htag

/-- The typedef that gives a tag its name is merged with it. -/
theorem isMerged_of_lookup {usr : Usr} (h : s.tagNames.lookup usr = some t) :
    s.isMerged t.usr = true := by
  refine List.any_eq_true.2 ⟨(usr, t), mem_tagNames_of_lookup h, ?_⟩
  simp [canonicalName?, h]

/-- A type whose name comes from a typedef is that typedef, or a tag with that
typedef as the first that names it. -/
theorem type_of_origin (hs : s.WellFormed) (hplan : s.plan = .ok plan) (hp : p ∈ plan.modules)
    (ha : a ∈ p.types) (h : s.origin a = .typedef t) :
    t ∈ s.table.definitions ∧ t.isTypedef = true ∧
      (a = t ∧ s.isMerged t.usr = false ∨ s.tagNames.lookup a.usr = some t) := by
  obtain ⟨_, _, htag | ⟨hk, hdef, hseparate⟩⟩ := type_of_plan hs hplan hp ha
  · rw [origin_of_isTag htag] at h
    split at h
    · next hlookup =>
      cases h
      obtain ⟨hdef, hk, _⟩ := namer_of_lookup hs hlookup
      exact ⟨hdef, hk, .inr hlookup⟩
    · split at h <;> cases h
  · rw [origin_of_isTypedef hk] at h
    cases h
    exact ⟨hdef, hk, .inl ⟨rfl, hseparate⟩⟩

/-- Two types of a module that have their name from one typedef are one. -/
theorem eq_of_origin (hs : s.WellFormed) (hplan : s.plan = .ok plan) (hp : p ∈ plan.modules)
    (ha : a ∈ p.types) (hb : b ∈ p.types) (hta : s.origin a = .typedef t)
    (htb : s.origin b = .typedef t) : a = b := by
  obtain ⟨_, _, ⟨rfl, hseparate⟩ | hla⟩ := type_of_origin hs hplan hp ha hta
  · obtain ⟨_, _, ⟨rfl, _⟩ | hlb⟩ := type_of_origin hs hplan hp hb htb
    · rfl
    · -- The typedef would be merged with the tag that it names.
      rw [isMerged_of_lookup hlb] at hseparate
      cases hseparate
  · obtain ⟨_, _, ⟨rfl, hseparate⟩ | hlb⟩ := type_of_origin hs hplan hp hb htb
    · rw [isMerged_of_lookup hla] at hseparate
      cases hseparate
    · have husr : a.usr = b.usr := Option.some.inj
        ((namer_of_lookup hs hla).2.2.symm.trans (namer_of_lookup hs hlb).2.2)
      have hfind := (type_of_plan hs hplan hp ha).1
      rw [husr] at hfind
      exact Option.some.inj (hfind.symm.trans (type_of_plan hs hplan hp hb).1)

/-- A type under its own spelling is a tag that has one. -/
theorem isTag_of_origin (hs : s.WellFormed) (hplan : s.plan = .ok plan) (hp : p ∈ plan.modules)
    (ha : a ∈ p.types) (h : s.origin a = .tag) :
    a.isTag = true ∧ Ident.isAnonymous a.name = false := by
  obtain ⟨_, _, htag | ⟨hk, _, _⟩⟩ := type_of_plan hs hplan hp ha
  · refine ⟨htag, ?_⟩
    rw [origin_of_isTag htag] at h
    split at h
    · cases h
    · split at h
      · cases h
      · next hnamed => simpa using hnamed
  · rw [origin_of_isTypedef hk] at h
    cases h

/-- What a USR of the table leads to is a declaration of the unit. -/
theorem mem_children_of_find? (hunit : ofUnit unit rules = .ok s) {usr : Usr}
    (h : s.table.find? usr = some d) : d ∈ unit.children := by
  refine Table.mem_children_of_ofUnit (ofUnit_eq_ok hunit).1 d (List.mem_append.2 ?_)
  rcases Table.mem_of_find? h with hd | ⟨hd, _⟩
  · exact .inl hd
  · exact .inr hd

/-- What belongs to one module is put together by the rules. -/
theorem putTogether_of_moduleOf (hunit : ofUnit unit rules = .ok s) {module : String}
    (ha : s.moduleOf a = .ok module) (hb : s.moduleOf b = .ok module) :
    ModuleRule.putTogether rules a b = true := by
  have hrules : s.rules = rules := (ofUnit_eq_ok hunit).2.2.1
  rw [moduleOf, hrules] at ha hb
  rw [ModuleRule.putTogether, ha, hb]
  exact beq_self_eq_true module

/-- **Types of one plain name are one**, unless they collide as the rules of C
allow. -/
theorem eq_of_plainName_eq (hrules : unit.KeepsNamesApart rules)
    (hunit : ofUnit unit rules = .ok s) (hplan : s.plan = .ok plan) (hp : p ∈ plan.modules)
    (hno : ¬ s.Collision p) (ha : a ∈ p.types) (hb : b ∈ p.types)
    (h : s.plainName a = s.plainName b) : a = b := by
  have hs := wellFormed_of_ofUnit hunit
  obtain ⟨hfa, hma, _⟩ := type_of_plan hs hplan hp ha
  obtain ⟨hfb, hmb, _⟩ := type_of_plan hs hplan hp hb
  by_contra hne
  cases hoa : s.origin a with
  | usr => exact hno (.nameless ha hb hne hoa h)
  | tag =>
      cases hob : s.origin b with
      | usr => exact hno (.nameless hb ha (Ne.symm hne) hob h.symm)
      | typedef t => exact hno (.namespaces ha hb hoa hob h)
      | tag =>
          -- Two tags of a module with one spelling are one tag.
          obtain ⟨hta, hnamed⟩ := isTag_of_origin hs hplan hp ha hoa
          obtain ⟨htb, _⟩ := isTag_of_origin hs hplan hp hb hob
          have hname : a.name = b.name := by simpa only [plainName, hoa, hob] using h
          have husr := hrules.tags a (mem_children_of_find? hunit hfa) b
            (mem_children_of_find? hunit hfb) hta htb hnamed
            (putTogether_of_moduleOf hunit hma hmb) hname
          rw [husr] at hfa
          exact hne (Option.some.inj (hfa.symm.trans hfb))
  | typedef t =>
      cases hob : s.origin b with
      | usr => exact hno (.nameless hb ha (Ne.symm hne) hob h.symm)
      | tag => exact hno (.namespaces hb ha hob hoa h.symm)
      | typedef t' =>
          by_cases hhome : s.moduleOf t = .ok p.name
          · by_cases hhome' : s.moduleOf t' = .ok p.name
            · -- Two typedefs of a module with one name are one typedef.
              obtain ⟨hdef, hk, _⟩ := type_of_origin hs hplan hp ha hoa
              obtain ⟨hdef', hk', _⟩ := type_of_origin hs hplan hp hb hob
              have hname : t.name = t'.name := by simpa only [plainName, hoa, hob] using h
              have husr := hrules.typedefs t
                (mem_children_of_find? hunit (hs.table.find?_of_mem hdef)) t'
                (mem_children_of_find? hunit (hs.table.find?_of_mem hdef')) hk hk'
                (putTogether_of_moduleOf hunit hhome hhome') hname
              obtain rfl := hs.table.eq_of_usr_eq hdef hdef' husr
              exact hne (eq_of_origin hs hplan hp ha hb hoa hob)
            · exact hno (.foreign hb ha (Ne.symm hne) hob hhome' h.symm)
          · exact hno (.foreign ha hb hne hoa hhome h)

/-- The mark of raw identifiers occurs in no plain name. -/
theorem isUnmarked_plainName (hrules : unit.KeepsNamesApart rules)
    (hunit : ofUnit unit rules = .ok s) (hplan : s.plan = .ok plan) (hp : p ∈ plan.modules)
    (hd : d ∈ p.types) : Ident.IsUnmarked (s.plainName d) := by
  have hs := wellFormed_of_ofUnit hunit
  unfold plainName
  cases ho : s.origin d with
  | usr => exact isUnmarked_ofUsr d.usr
  | tag =>
      obtain ⟨htag, hnamed⟩ := isTag_of_origin hs hplan hp hd ho
      refine hrules.unmarked d
        (mem_children_of_find? hunit (type_of_plan hs hplan hp hd).1) ?_
      simp [Decl.hasName, htag, hnamed]
  | typedef t =>
      obtain ⟨hdef, hk, _⟩ := type_of_origin hs hplan hp hd ho
      refine hrules.unmarked t
        (mem_children_of_find? hunit (hs.table.find?_of_mem hdef)) ?_
      simp [Decl.hasName, hk]

/-- **The types of a module have distinct names exactly if they do not collide**
as the rules of C allow. -/
theorem type_names_nodup_iff (hrules : unit.KeepsNamesApart rules)
    (hunit : ofUnit unit rules = .ok s) (hplan : s.plan = .ok plan) (hp : p ∈ plan.modules) :
    (s.typeNames p).Nodup ↔ ¬ s.Collision p := by
  have hs := wellFormed_of_ofUnit hunit
  have hunmarked : ∀ name ∈ p.types.map s.plainName, Ident.IsUnmarked name := by
    intro name hname
    obtain ⟨d, hd, rfl⟩ := List.mem_map.1 hname
    exact isUnmarked_plainName hrules hunit hplan hp hd
  rw [typeNames_eq hs hplan hp]
  constructor
  · -- Distinct written names come from distinct plain names, where only a
    -- keyword can still meet a name with an underscore.
    intro hnodup hcollision
    have hplain := hnodup.of_map
    have hinj := (List.nodup_map_iff_inj_on (nodup_types hs hplan hp)).1 hplain
    cases hcollision with
    | namespaces left right tag typedef alike =>
        obtain rfl := hinj _ left _ right alike
        rw [tag] at typedef
        cases typedef
    | foreign left right distinct _ _ alike => exact distinct (hinj _ left _ right alike)
    | nameless left right distinct _ alike => exact distinct (hinj _ left _ right alike)
    | keyword clash => exact (Ident.nodup_map_escape_iff hplain hunmarked).1 hnodup clash
  · intro hno
    have hplain : (p.types.map s.plainName).Nodup :=
      (List.nodup_map_iff_inj_on (nodup_types hs hplan hp)).2 fun a ha b hb h =>
        eq_of_plainName_eq hrules hunit hplan hp hno ha hb h
    exact (Ident.nodup_map_escape_iff hplain hunmarked).2 fun hclash => hno (.keyword hclash)

end Scope

/-! ## §5. A small unit. -/

namespace Span

/-- A struct that a typedef names. -/
def span : Decl :=
  .implicit "s:_Span" "_Span" (.record [.implicit "w" "w" (.field (.builtin "Int") none)] .struct)

/-- A struct with a name of its own. -/
def other (name : String) : Decl :=
  .implicit "s:other" name (.record [.implicit "h" "h" (.field (.ofName "Word") none)] .struct)

/-- A nameless enum that a typedef names. -/
def mode : Decl :=
  .implicit "e:Mode" "(unnamed enum)" (.enum (some (.builtin "UInt")) false
    [.implicit "Plain" "Plain" (.enumConstant (some "0"))])

/-- A typedef that names no tag. -/
def word : Decl := .implicit "t:Word" "Word" (.typedef (.builtin "UInt"))

/-- The typedefs of the tags. -/
def spanName : Decl := .implicit "t:Span" "Span" (.typedef (.record "s:_Span"))

@[inherit_doc spanName]
def modeName : Decl := .implicit "t:Mode" "Mode" (.typedef (.enum "e:Mode"))

/-- All of them, and a class that uses them. -/
def unit (name : String) : TranslationUnit where
  children :=
    [span, spanName, mode, modeName, word, other name,
     .implicit "c:Box" "Box" (.interface
       [.ofMethod "fit:mode:" [.ofName "Span", .ofName "Mode"] (.record "s:other")] [] none [])]

/-- The scope of the unit. -/
def scope (name : String) : Scope where
  table := ⟨(unit name).children, []⟩
  used :=
    { typedefs := ["t:Mode", "t:Span", "t:Word"], structs := ["s:_Span", "s:other"]
      enums := ["e:Mode"], objc := ["c:Box"] }
  rules := uiRules
  tagNames := [("s:_Span", spanName), ("e:Mode", modeName)]

/-- The scope of the unit, in full. -/
theorem ofUnit_unit (name : String) : Scope.ofUnit (unit name) uiRules = .ok (scope name) := by
  cbv

/-- The plan has one module with these types, whatever the last struct is
called. -/
theorem plan_scope (name : String) :
    ∃ plan p, (scope name).plan = .ok plan ∧ plan.modules = [p] ∧
      p.structs.map StructPlan.decl = [span, other name] ∧ p.aliases = [mode, word] := by
  have hplan : (scope name).plan.map (fun plan => plan.modules.map fun p =>
      (p.structs.map StructPlan.decl, p.aliases)) = .ok [([span, other name], [mode, word])] := by
    cbv
  obtain ⟨plan, hok, hmodules⟩ := map_eq_ok_iff.1 hplan
  obtain ⟨p, hp, hparts⟩ := List.map_eq_singleton_iff.1 hmodules
  exact ⟨plan, p, hok, hp, congrArg Prod.fst hparts, congrArg Prod.snd hparts⟩

/-- The names of the types, where the last struct has a name. -/
theorem typeNames_scope {name : String} (h : Ident.isAnonymous name = false) {p : ModulePlan}
    (hstructs : p.structs.map StructPlan.decl = [span, other name])
    (haliases : p.aliases = [mode, word]) :
    (scope name).typeNames p = ["Span", Ident.escape name, "Mode", "Word"] := by
  have hother : (scope name).tagName (other name) = Ident.escape name := by
    show (if Ident.isAnonymous name then _ else _) = _
    rw [h]
    rfl
  have hmap : p.structs.map ((scope name).tagName ·.decl)
      = (p.structs.map StructPlan.decl).map (scope name).tagName := by rw [List.map_map]; rfl
  rw [Scope.typeNames, hmap, hstructs, haliases, List.map_cons, List.map_cons, hother]
  rfl

/-- The unit keeps the rules of C, also where a struct and a typedef share a
name. -/
theorem keepsNamesApart_unit : ∀ name ∈ ["Gap", "Span"],
    (unit name).KeepsNamesApart uiRules := by
  intro name hname
  refine ⟨?_, ?_, ?_⟩ <;> revert name <;> decide +kernel

/-- With a name of its own for each struct, no two types collide. -/
theorem gap_names_nodup :
    (unit "Gap").KeepsNamesApart uiRules ∧
    ∃ plan, Scope.ofUnit (unit "Gap") uiRules = .ok (scope "Gap") ∧
      (scope "Gap").plan = .ok plan ∧
      ∀ p ∈ plan.modules, ((scope "Gap").typeNames p).Nodup ∧ ¬ (scope "Gap").Collision p := by
  have hrules := keepsNamesApart_unit "Gap" (by simp)
  obtain ⟨plan, p, hplan, hmodules, hstructs, haliases⟩ := plan_scope "Gap"
  refine ⟨hrules, plan, ofUnit_unit "Gap", hplan, fun q hq => ?_⟩
  have hiff := Scope.type_names_nodup_iff hrules (ofUnit_unit "Gap") hplan hq
  have hqp : q = p := by simpa [hmodules] using hq
  have hnodup : ((scope "Gap").typeNames q).Nodup := by
    rw [hqp, typeNames_scope (by decide) hstructs haliases]
    decide
  exact ⟨hnodup, hiff.1 hnodup⟩

/-- **Two structs under one name**: one of them has it from its typedef, the
other is called so. -/
theorem span_names_collide :
    (unit "Span").KeepsNamesApart uiRules ∧
    ∃ plan, Scope.ofUnit (unit "Span") uiRules = .ok (scope "Span") ∧
      (scope "Span").plan = .ok plan ∧
      ∃ p ∈ plan.modules, ¬ ((scope "Span").typeNames p).Nodup := by
  obtain ⟨plan, p, hplan, hmodules, hstructs, haliases⟩ := plan_scope "Span"
  refine ⟨keepsNamesApart_unit "Span" (by simp), plan, ofUnit_unit "Span", hplan, p,
    by simp [hmodules], ?_⟩
  rw [typeNames_scope (by decide) hstructs haliases]
  decide

end Span

end ObjcBindings
