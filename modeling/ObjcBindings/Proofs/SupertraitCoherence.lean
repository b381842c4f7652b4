/-
  ObjcBindings.Proofs.SupertraitCoherence
  ────────────────────────────────
  **EVERY CLASS IMPLEMENTS WHAT IS ABOVE IT, AND IMPLEMENTS IT ONCE.**

  What a class implements is spread over the container of its interface and
  the containers of its categories, in as many modules.  Taken together,

    • no trait occurs twice,
    • a safe trait comes with its raw trait and with the safe traits of the
      superclass and of the protocols that are declared,
    • nothing else occurs than the traits of what is declared above the class
      and above the protocols of its categories, and the categories' own.

  Diamonds and cycles are allowed; all that is asked is that the names of a
  module's interfaces, and of its protocols, are distinct.
-/
import ObjcBindings.Proofs.CategoryMerging
import ObjcBindings.Proofs.DeclaredHierarchy
import Mathlib

namespace ObjcBindings

/-! ## §1. What has to hold. -/

/-- What a class implements in all modules: through its own container, and
through those of its categories. -/
def Plan.implsOf (plan : Plan) (cls : Decl) : List TraitRef :=
  ((plan.modules.flatMap ModulePlan.interfaces
      ++ plan.modules.flatMap ModulePlan.categories).filter fun c => c.decl = cls).flatMap
    Container.impls

namespace Scope

/-- No two interfaces, and no two protocols, of one module share a name. -/
structure NamesDistinct (s : Scope) : Prop where
  interfaces : ∀ d ∈ s.table.definitions, ∀ e ∈ s.table.definitions,
    d.isInterface = true → e.isInterface = true →
      s.moduleOf d = s.moduleOf e → d.name = e.name → d = e
  protocols : ∀ d ∈ s.table.definitions, ∀ e ∈ s.table.definitions,
    d.isProtocol = true → e.isProtocol = true →
      s.moduleOf d = s.moduleOf e → d.name = e.name → d = e

/-- What the class implements is closed under supertraits, without repetitions
and without anything else. -/
structure Coherent (s : Scope) (plan : Plan) (cls : Decl) : Prop where
  /-- Every interface and protocol is in its module, and its node records the
  superclass and the protocols that are declared for it. -/
  nodes : ∀ d ∈ s.table.definitions, d.HasTraits → s.moduleOf d = .ok (s.home d) ∧
    ∃ n, plan.supertraits.node? d.usr = some n ∧ s.IsNodeOf n d
  /-- There are no other nodes. -/
  declared : ∀ n ∈ plan.supertraits, ∃ d ∈ s.table.definitions, d.HasTraits ∧ s.IsNodeOf n d
  /-- The class has a container for categories in the modules that extend it. -/
  extended : ∀ p ∈ plan.modules,
    (∃ k ∈ p.categories, k.decl = cls) ↔ s.IsExtendedIn cls p.name
  /-- Nothing occurs twice. -/
  nodup : (plan.implsOf cls).Nodup
  /-- The class implements its own two traits. -/
  own : s.rawTraitOf cls ∈ plan.implsOf cls ∧ s.safeTraitOf cls ∈ plan.implsOf cls
  /-- A safe trait comes with its raw trait, and with the safe traits of the
  superclass, of the protocols and of those that categories merge in. -/
  closed : ∀ d ∈ s.table.definitions, d.HasTraits → s.safeTraitOf d ∈ plan.implsOf cls →
    s.rawTraitOf d ∈ plan.implsOf cls ∧ ∀ e, s.IsUnder d e → s.safeTraitOf e ∈ plan.implsOf cls
  /-- The categories of another module come with both of their traits, and with
  the safe traits of their protocols. -/
  categories : ∀ module, s.IsExtendedIn cls module →
    .raw module cls.name .category ∈ plan.implsOf cls ∧
    .safe module cls.name .category ∈ plan.implsOf cls ∧
      ∀ e, s.CategoryAdopts module cls e → s.safeTraitOf e ∈ plan.implsOf cls
  /-- Nothing else occurs. -/
  exactly : ∀ t, t ∈ plan.implsOf cls ↔ s.Inherits cls t ∨
    ∃ module, s.IsExtendedIn cls module ∧
      (t = .raw module cls.name .category ∨ t = .safe module cls.name .category ∨
        ∃ e, s.CategoryAdopts module cls e ∧ s.Inherits e t)

end Scope

/-! ## §2. What interfaces implement. -/

/-- What containers of many sources implement, source by source. -/
theorem implsOfUsr_flatMap {α : Type} (usr : Usr) (l : List α) (f : α → List Container) :
    implsOfUsr usr (l.flatMap f) = l.flatMap fun x => implsOfUsr usr (f x) := by
  induction l with
  | nil => rfl
  | cons x l ih => rw [List.flatMap_cons, List.flatMap_cons, implsOfUsr_append, ih]

/-- The last pass over categories leaves interfaces as they are. -/
theorem Supertraits.interfaces_finishModules (nodes : Supertraits) (ms : List ModulePlan) :
    ∀ done, (nodes.finishModules ms done).flatMap ModulePlan.interfaces
      = ms.flatMap ModulePlan.interfaces := by
  induction ms with
  | nil => exact fun _ => rfl
  | cons p ps ih =>
      intro done
      show p.interfaces ++ (nodes.finishModules ps _).flatMap ModulePlan.interfaces = _
      rw [ih]
      rfl

/-- What the interfaces of some modules implement. -/
def implementedBy (ms : List ModulePlan) : Implemented :=
  ms.flatMap fun p => p.interfaces.flatMap fun c => c.impls.map fun t => (c.decl.usr, t)

/-- What is implemented before that pass, class by class. -/
theorem mem_implementedBy_iff {usr : Usr} {t : TraitRef} {ms : List ModulePlan} :
    (usr, t) ∈ implementedBy ms ↔ t ∈ implsOfUsr usr (ms.flatMap ModulePlan.interfaces) := by
  unfold implementedBy implsOfUsr
  simp only [List.mem_flatMap, List.mem_map, List.mem_filter, Prod.mk.injEq, beq_iff_eq]
  constructor
  · rintro ⟨p, hp, c, hc, x, hx, rfl, rfl⟩
    exact ⟨c, ⟨⟨p, hp, hc⟩, rfl⟩, hx⟩
  · rintro ⟨c, ⟨⟨p, hp, hc⟩, rfl⟩, ht⟩
    exact ⟨p, hp, c, hc, t, ht, rfl, rfl⟩

namespace Scope

variable {s : Scope} {plan : Plan} {cls : Decl}

/-- The modules of a plan after interfaces and protocols are finished. -/
noncomputable def owned (s : Scope) : List ModulePlan :=
  s.drafts.map s.supertraits.finishOwn

/-- The last pass over the categories starts from what interfaces implement. -/
theorem finishModules_drafts (s : Scope) :
    finishModules s.drafts = s.supertraits.finishModules s.owned (implementedBy s.owned) := rfl

/-- Of the interfaces of a module, the class itself is the one with its USR; it
is there only at home. -/
theorem filter_interfaces (hs : s.WellFormed) (hd : cls ∈ s.table.definitions)
    (hi : cls.isInterface = true) (name : String) :
    (s.table.definitions.filter fun d => d.isInterface && s.home d == name).filter
        (·.usr == cls.usr)
      = if name = s.home cls then [cls] else [] := by
  rw [List.filter_filter]
  by_cases hname : name = s.home cls
  · rw [if_pos hname, ← filter_eq_singleton hs.nodup_definitions hd]
    apply List.filter_congr
    intro d hdef
    by_cases he : d = cls
    · simp [he, hi, hname]
    · have hne : ¬ d.usr = cls.usr := fun h => he (hs.table.eq_of_usr_eq hdef hd h)
      simp [he, hne]
  · rw [if_neg hname]
    refine List.filter_eq_nil_iff.2 fun d hdef hcond => hname ?_
    simp only [Bool.and_eq_true, beq_iff_eq] at hcond
    rw [← hs.table.eq_of_usr_eq hdef hd hcond.1, hcond.2.2]

/-- **An interface implements what is above it.** -/
theorem implsOfUsr_interfaces (hs : s.WellFormed) (hd : cls ∈ s.table.definitions)
    (hi : cls.isInterface = true) :
    implsOfUsr cls.usr (s.owned.flatMap ModulePlan.interfaces)
      = s.supertraits.closure [cls.usr] [] := by
  -- The container is in one module only, that of the class.
  have hmodule : ∀ name, implsOfUsr cls.usr (s.supertraits.finishOwn (s.draft name)).interfaces
      = if name = s.home cls then s.supertraits.closure [cls.usr] [] else [] := by
    intro name
    show implsOfUsr cls.usr ((s.draft name).interfaces.map s.supertraits.finishInterface) = _
    rw [draft_interfaces hs, List.map_map, implsOfUsr, List.filter_map]
    show List.flatMap _ (List.map _ (List.filter (fun d : Decl => d.usr == cls.usr) _)) = _
    rw [filter_interfaces hs hd hi name]
    split
    · exact List.append_nil _
    · rfl
  have hhome := home_mem_of_item hd (item?_of_isInterface (s := s) hi)
  rw [owned, drafts_eq_map, List.map_map, List.flatMap_map, implsOfUsr_flatMap,
    flatMap_of_unique s.nodup_moduleNames hhome]
  · exact (hmodule _).trans (if_pos rfl)
  · intro name _ hne
    exact (hmodule name).trans (if_neg hne)

/-! ## §3. What a class implements in all modules. -/

/-- The containers of a module's interfaces are for definitions. -/
theorem decl_mem_of_mem_interfaces (hs : s.WellFormed) (hm : s.Modules plan) {p : ModulePlan}
    (hp : p ∈ plan.modules) {c : Container} (hc : c ∈ p.interfaces) :
    c.decl ∈ s.table.definitions := by
  obtain ⟨d, hd, _, _, he⟩ := forget_of_interface hs hm hp hc
  have hdecl : c.decl = d := congrArg Container.decl he
  rw [hdecl]
  exact hd

/-- The containers of a module's categories are for definitions. -/
theorem decl_mem_of_mem_categories (hs : s.WellFormed) (hm : s.Modules plan) {p : ModulePlan}
    (hp : p ∈ plan.modules) {c : Container} (hc : c ∈ p.categories) :
    c.decl ∈ s.table.definitions := by
  obtain ⟨d, hd, _, he⟩ := forget_of_category hs hm hp hc
  have hdecl : c.decl = d := congrArg Container.decl he
  rw [hdecl]
  exact hd

/-- What a class implements, through its interface and then through categories. -/
theorem implsOf_eq_append (hs : s.WellFormed) (hm : s.Modules plan)
    (hd : cls ∈ s.table.definitions) :
    plan.implsOf cls = implsOfUsr cls.usr (plan.modules.flatMap ModulePlan.interfaces)
      ++ implsOfUsr cls.usr (plan.modules.flatMap ModulePlan.categories) := by
  rw [← implsOfUsr_append, Plan.implsOf, implsOfUsr]
  congr 1
  apply List.filter_congr
  intro c hc
  -- Declarations of containers are definitions, so their USRs tell them apart.
  have hdef : c.decl ∈ s.table.definitions := by
    rcases List.mem_append.1 hc with hc | hc
    · obtain ⟨p, hp, hc⟩ := List.mem_flatMap.1 hc
      exact decl_mem_of_mem_interfaces hs hm hp hc
    · obtain ⟨p, hp, hc⟩ := List.mem_flatMap.1 hc
      exact decl_mem_of_mem_categories hs hm hp hc
  have husr : c.decl = cls ↔ c.decl.usr = cls.usr :=
    ⟨congrArg Decl.usr, hs.table.eq_of_usr_eq hdef hd⟩
  rw [beq_eq_decide, decide_eq_decide]
  exact husr

/-- The two parts of what a class implements: what is above it, and what its
categories offer besides. -/
theorem implsOf_spec (hs : s.WellFormed) (hplan : s.plan = .ok plan)
    (hd : cls ∈ s.table.definitions) (hi : cls.isInterface = true) :
    (plan.implsOf cls).Nodup ∧ ∀ t, t ∈ plan.implsOf cls ↔
      t ∈ s.supertraits.closure [cls.usr] [] ∨
        ∃ p ∈ s.owned, s.supertraits.Offers p.name p.categories cls.usr t := by
  have hm := modules_of_plan hs hplan
  rw [implsOf_eq_append hs hm hd]
  obtain ⟨_, rfl⟩ := plan_eq_ok hs hplan
  rw [finishModules_drafts, Supertraits.interfaces_finishModules, implsOfUsr_interfaces hs hd hi]
  obtain ⟨hnodup, hmem⟩ :=
    s.supertraits.finishModules_claims cls.usr s.owned (implementedBy s.owned)
  have hdone : ∀ t, (cls.usr, t) ∈ implementedBy s.owned ↔
      t ∈ s.supertraits.closure [cls.usr] [] := by
    intro t
    rw [mem_implementedBy_iff, implsOfUsr_interfaces hs hd hi]
  constructor
  · refine List.nodup_append.2 ⟨Supertraits.nodup_closure _, hnodup, ?_⟩
    -- What the interface implements is never claimed by a category.
    rintro t ht t' ht' rfl
    exact ((hmem t).1 ht').2 ((hdone t).2 ht)
  · intro t
    rw [List.mem_append, hmem, hdone]
    by_cases ht : t ∈ s.supertraits.closure [cls.usr] []
    · simp [ht]
    · simp [ht]

/-! ## §4. What is inherited. -/

/-- Distinct names make distinct safe traits. -/
theorem NamesDistinct.eq_of_safeTraitOf_eq (h : s.NamesDistinct) (homes : s.HasHomes) {d e : Decl}
    (hd : d ∈ s.table.definitions) (hkind : d.HasTraits) (he : e ∈ s.table.definitions)
    (hkind' : e.HasTraits) (hsafe : s.safeTraitOf d = s.safeTraitOf e) : d = e := by
  obtain ⟨hmodule, hname, hsame⟩ := TraitRef.safe_inj hsafe
  have hmodules : s.moduleOf d = s.moduleOf e := by
    rw [homes.items d hd (item?_of_container hkind), homes.items e he (item?_of_container hkind'),
      hmodule]
  -- The kind tells whether both are interfaces or both are protocols.
  cases hdi : d.isInterface with
  | true =>
      have hei : e.isInterface = true := by
        cases hei : e.isInterface with
        | true => rfl
        | false => simp [Decl.traitKind, hdi, hei] at hsame
      exact h.interfaces d hd e he hdi hei hmodules hname
  | false =>
      have hei : e.isInterface = false := by
        cases hei : e.isInterface with
        | true => simp [Decl.traitKind, hdi, hei] at hsame
        | false => rfl
      have hdp : d.isProtocol = true := by simpa [Decl.HasTraits, hdi] using hkind
      have hep : e.isProtocol = true := by simpa [Decl.HasTraits, hei] using hkind'
      exact h.protocols d hd e he hdp hep hmodules hname

/-- With distinct names no two nodes share a safe trait. -/
theorem NamesDistinct.supertraits (h : s.NamesDistinct) (hs : s.WellFormed) (homes : s.HasHomes) :
    s.supertraits.Distinct := by
  intro n hn m hm hsafe
  obtain ⟨d, hd, hkind, rfl⟩ := (mem_supertraits_iff hs).1 hn
  obtain ⟨e, he, hkind', rfl⟩ := (mem_supertraits_iff hs).1 hm
  rw [safe_nodeOf, safe_nodeOf] at hsafe
  rw [h.eq_of_safeTraitOf_eq homes hd hkind he hkind' hsafe]

/-- **What is inherited is closed under supertraits.** -/
theorem NamesDistinct.closed (h : s.NamesDistinct) (homes : s.HasHomes) {x d : Decl}
    (hx : x ∈ s.table.definitions) (hxkind : x.HasTraits) (hd : d ∈ s.table.definitions)
    (hkind : d.HasTraits) (hsafe : s.Inherits x (s.safeTraitOf d)) :
    s.Inherits x (s.rawTraitOf d) ∧ ∀ e, s.IsUnder d e → s.Inherits x (s.safeTraitOf e) := by
  obtain ⟨e, hbelow, heq | heq⟩ := hsafe
  · exact absurd heq TraitRef.safe_ne_raw
  · obtain ⟨he, hekind⟩ := hbelow.defined hx hxkind
    obtain rfl := h.eq_of_safeTraitOf_eq homes hd hkind he hekind heq
    exact ⟨⟨d, hbelow, .inl rfl⟩, fun e hunder => ⟨e, hbelow.tail hunder, .inr rfl⟩⟩

/-! ## §5. What categories offer. -/

/-- The traits of interfaces and protocols are no category's. -/
theorem safeTraitOf_ne_category {d : Decl} {module name : String} :
    s.safeTraitOf d ≠ .safe module name .category := by
  intro he
  have hkind := (TraitRef.safe_inj he).2.2
  unfold Decl.traitKind at hkind
  split at hkind <;> cases hkind

/-- The traits of a category are those of no interface or protocol. -/
theorem closedUpTo_category (hs : s.WellFormed) (todo : List Usr) (module name : String) :
    s.supertraits.ClosedUpTo todo
      [.raw module name .category, .safe module name .category] := by
  intro n hn hsafe
  obtain ⟨d, _, _, rfl⟩ := (mem_supertraits_iff hs).1 hn
  rw [safe_nodeOf] at hsafe
  exfalso
  rcases List.mem_cons.1 hsafe with he | hsafe
  · exact TraitRef.safe_ne_raw he
  · exact safeTraitOf_ne_category (List.mem_singleton.1 hsafe)

/-- What a category offers: its own traits, and what is above its protocols. -/
theorem mem_categoryTraits_iff (hs : s.WellFormed) (hd : s.supertraits.Distinct)
    {module : String} {c : Container} {t : TraitRef} :
    t ∈ s.supertraits.categoryTraits module c ↔
      t = .raw module c.decl.name .category ∨ t = .safe module c.decl.name .category ∨
        ∃ d ∈ c.protocols, ∃ n, s.supertraits.Reaches d.usr n ∧ n.Has t := by
  rw [Supertraits.categoryTraits,
    Supertraits.mem_closure_iff hd (closedUpTo_category hs _ module c.decl.name)]
  simp [or_assoc]

/-- The categories that offer something are those of the finished plan. -/
theorem offers_iff (hs : s.WellFormed) (hm : s.Modules plan) (hd : cls ∈ s.table.definitions)
    {t : TraitRef} :
    (∃ p ∈ s.owned, s.supertraits.Offers p.name p.categories cls.usr t) ↔
      ∃ p ∈ plan.modules, ∃ k ∈ p.categories, k.decl = cls ∧
        t ∈ s.supertraits.categoryTraits p.name k := by
  constructor
  · rintro ⟨p, hp, c, hc, husr, ht⟩
    obtain ⟨draft, hdraft, rfl⟩ := List.mem_map.1 hp
    obtain ⟨name, hname, rfl⟩ := List.mem_map.1 hdraft
    obtain ⟨q, hq, rfl⟩ := hm.exists_of_mem hname
    -- The last pass keeps the declaration and the protocols of a category.
    have hforget : c.forget ∈ q.categories.map Container.forget := by
      rw [(hm.finished q hq).forget_categories]
      exact List.mem_map_of_mem hc
    obtain ⟨k, hk, he⟩ := List.mem_map.1 hforget
    have hdecl : k.decl = c.decl := Container.decl_eq_of_forget he
    have hkusr : k.decl.usr = cls.usr := hdecl ▸ husr
    have htraits := s.supertraits.categoryTraits_eq_of_forget he q.name
    exact ⟨q, hq, k, hk,
      hs.table.eq_of_usr_eq (decl_mem_of_mem_categories hs hm hq hk) hd hkusr, htraits ▸ ht⟩
  · rintro ⟨q, hq, k, hk, rfl, ht⟩
    have hforget : k.forget ∈ (s.draft q.name).categories.map Container.forget := by
      rw [← (hm.finished q hq).forget_categories]
      exact List.mem_map_of_mem hk
    obtain ⟨c, hc, he⟩ := List.mem_map.1 hforget
    have hdecl : c.decl = k.decl := Container.decl_eq_of_forget he
    have htraits := s.supertraits.categoryTraits_eq_of_forget he q.name
    have hdraft : s.draft q.name ∈ s.drafts := List.mem_map_of_mem (hm.name_mem hq)
    exact ⟨s.supertraits.finishOwn (s.draft q.name), List.mem_map_of_mem hdraft, c, hc,
      congrArg Decl.usr hdecl, htraits ▸ ht⟩

/-- The modules that extend a class are those from which it is visited. -/
theorem isExtendedIn_iff (hs : s.WellFormed) (homes : s.HasHomes) {module : String} :
    s.IsExtendedIn cls module ↔ cls ∈ s.visited module := by
  have hcategories : (∃ k, s.IsCategoryOf k cls module) ↔ s.categoriesOf module cls ≠ [] := by
    rw [ne_eq, List.eq_nil_iff_forall_not_mem, not_forall_not]
    exact exists_congr fun k => (mem_categoriesOf_iff hs homes).symm
  rw [mem_visited_iff, IsExtendedIn, hcategories]
  exact and_congr_left fun _ => ne_comm

/-- A module with a container for the class's categories extends the class, and
the container has the protocols that these categories adopt. -/
theorem protocols_of_category (hs : s.WellFormed) (homes : s.HasHomes) (hm : s.Modules plan)
    {p : ModulePlan} (hp : p ∈ plan.modules) {k : Container} (hk : k ∈ p.categories)
    (hdecl : k.decl = cls) : s.IsExtendedIn cls p.name ∧
      k.protocols = firstOfUsr ((s.categoriesOf p.name cls).flatMap s.adopted) := by
  have hmem : k ∈ containersFor cls p.categories :=
    List.mem_filter.2 ⟨hk, decide_eq_true hdecl⟩
  have hcontainers := containersFor_categories hs hm hp cls
  have hvisited : cls ∈ s.visited p.name := by
    by_contra hnot
    rw [hcontainers.1 hnot] at hmem
    cases hmem
  obtain ⟨c, hc, hholds⟩ := hcontainers.2 hvisited
  rw [hc, List.mem_singleton] at hmem
  exact ⟨(isExtendedIn_iff hs homes).2 hvisited, hmem ▸ hholds.2⟩

/-- The class has a container for categories where it is extended. -/
theorem exists_category_iff (hs : s.WellFormed) (homes : s.HasHomes) (hm : s.Modules plan)
    {p : ModulePlan} (hp : p ∈ plan.modules) :
    (∃ k ∈ p.categories, k.decl = cls) ↔ s.IsExtendedIn cls p.name := by
  constructor
  · rintro ⟨k, hk, hdecl⟩
    exact (protocols_of_category hs homes hm hp hk hdecl).1
  · intro h
    obtain ⟨k, hk, -⟩ := (containersFor_categories hs hm hp cls).2 ((isExtendedIn_iff hs homes).1 h)
    have hmem : k ∈ containersFor cls p.categories := hk ▸ List.mem_singleton_self k
    obtain ⟨hmem, hdecl⟩ := List.mem_filter.1 hmem
    exact ⟨k, hmem, of_decide_eq_true hdecl⟩

/-- What is reached from the protocols of such a container is what its
categories' protocols inherit. -/
theorem reaches_category_iff (hs : s.WellFormed) (homes : s.HasHomes) {module : String}
    {ds : List Decl}
    (hds : ds = firstOfUsr ((s.categoriesOf module cls).flatMap s.adopted)) {t : TraitRef} :
    (∃ d ∈ ds, ∃ n, s.supertraits.Reaches d.usr n ∧ n.Has t) ↔
      ∃ e, s.CategoryAdopts module cls e ∧ s.Inherits e t := by
  have hdefined : ∀ e ∈ (s.categoriesOf module cls).flatMap s.adopted,
      e ∈ s.table.definitions := fun _ he => defined_of_mem_flatMap hs he
  constructor
  · rintro ⟨d, hd, n, hn, hhas⟩
    rw [hds, mem_firstOfUsr_iff hs hdefined] at hd
    have hkind := hasTraits_of_reaches hs (hdefined d hd) hn
    exact ⟨d, (categoryAdopts_iff hs homes hkind).2 hd,
      (inherits_iff hs homes (hdefined d hd) hkind).1 ⟨n, hn, hhas⟩⟩
  · rintro ⟨e, hadopts, hinherits⟩
    obtain ⟨hdef, hkind⟩ := hadopts.defined
    refine ⟨e, ?_, (inherits_iff hs homes hdef hkind).2 hinherits⟩
    rw [hds, mem_firstOfUsr_iff hs hdefined]
    exact (categoryAdopts_iff hs homes hkind).1 hadopts

/-- What the containers for the class's categories offer. -/
theorem mem_categories_iff (hs : s.WellFormed) (homes : s.HasHomes) (hm : s.Modules plan)
    (hdistinct : s.supertraits.Distinct) {t : TraitRef} :
    (∃ p ∈ plan.modules, ∃ k ∈ p.categories, k.decl = cls ∧
        t ∈ s.supertraits.categoryTraits p.name k) ↔
      ∃ module, s.IsExtendedIn cls module ∧
        (t = .raw module cls.name .category ∨ t = .safe module cls.name .category ∨
          ∃ e, s.CategoryAdopts module cls e ∧ s.Inherits e t) := by
  constructor
  · rintro ⟨p, hp, k, hk, hdecl, ht⟩
    obtain ⟨hextended, hprotocols⟩ := protocols_of_category hs homes hm hp hk hdecl
    rw [mem_categoryTraits_iff hs hdistinct, hdecl,
      reaches_category_iff hs homes hprotocols] at ht
    exact ⟨p.name, hextended, ht⟩
  · rintro ⟨module, hextended, ht⟩
    -- A module with categories is one of the plan's.
    obtain ⟨k, hk⟩ := hextended.2
    have hext := (extended?_eq_some_iff hs).2 hk.target
    obtain ⟨p, hp, rfl⟩ := hm.exists_of_mem
      (home_of_moduleOf hk.housed ▸ home_mem_of_extended hk.defined hext)
    obtain ⟨c, hc, hdecl⟩ := (exists_category_iff hs homes hm hp).2 hextended
    have hprotocols := (protocols_of_category hs homes hm hp hc hdecl).2
    refine ⟨p, hp, c, hc, hdecl, ?_⟩
    rwa [mem_categoryTraits_iff hs hdistinct, hdecl, reaches_category_iff hs homes hprotocols]

/-! ## §6. The theorem. -/

/-- Exactly this is implemented: what the class inherits, the traits of its
categories, and what the protocols of these inherit. -/
theorem mem_implsOf_iff (hs : s.WellFormed) (hplan : s.plan = .ok plan)
    (hdistinct : s.supertraits.Distinct) (hd : cls ∈ s.table.definitions)
    (hi : cls.isInterface = true) {t : TraitRef} :
    t ∈ plan.implsOf cls ↔ s.Inherits cls t ∨
      ∃ module, s.IsExtendedIn cls module ∧
        (t = .raw module cls.name .category ∨ t = .safe module cls.name .category ∨
          ∃ e, s.CategoryAdopts module cls e ∧ s.Inherits e t) := by
  have hstart : s.supertraits.ClosedUpTo [cls.usr] [] := fun n _ h => by cases h
  have hm := modules_of_plan hs hplan
  obtain ⟨homes, _⟩ := plan_eq_ok hs hplan
  rw [(implsOf_spec hs hplan hd hi).2, offers_iff hs hm hd,
    mem_categories_iff hs homes hm hdistinct, Supertraits.mem_closure_iff hdistinct hstart,
    ← inherits_iff hs homes hd (.inl hi)]
  simp

/-- **What a class implements is coherent.** -/
theorem plan_coherent {unit : TranslationUnit} {rules : List ModuleRule}
    (hunit : Scope.ofUnit unit rules = .ok s) (hplan : s.plan = .ok plan)
    (hnames : s.NamesDistinct) (hd : cls ∈ s.table.definitions)
    (hi : cls.isInterface = true) : s.Coherent plan cls := by
  have hs := wellFormed_of_ofUnit hunit
  obtain ⟨homes, _⟩ := plan_eq_ok hs hplan
  have hsame := supertraits_of_plan hs hplan
  have hmem := fun t => mem_implsOf_iff hs hplan (hnames.supertraits hs homes) hd hi (t := t)
  constructor
  case nodes =>
    intro d hdef hkind
    refine ⟨homes.items d hdef (item?_of_container hkind), s.nodeOf d, ?_, isNodeOf_nodeOf hs hkind⟩
    rw [hsame]
    exact node?_of_mem hs hdef hkind
  case declared =>
    rw [hsame]
    intro n hn
    obtain ⟨d, hdef, hkind, rfl⟩ := (mem_supertraits_iff hs).1 hn
    exact ⟨d, hdef, hkind, isNodeOf_nodeOf hs hkind⟩
  case extended =>
    exact fun p hp => exists_category_iff hs homes (modules_of_plan hs hplan) hp
  case nodup => exact (implsOf_spec hs hplan hd hi).1
  case own =>
    exact ⟨(hmem _).2 (.inl ⟨cls, .refl, .inl rfl⟩), (hmem _).2 (.inl ⟨cls, .refl, .inr rfl⟩)⟩
  case closed =>
    intro d hdef hkind hsafe
    -- The safe trait is inherited by the class, or by a protocol of a category.
    rcases (hmem _).1 hsafe with hself | ⟨module, hextended, he | he | ⟨x, hadopts, hx⟩⟩
    · obtain ⟨hraw, habove⟩ := hnames.closed homes hd (.inl hi) hdef hkind hself
      exact ⟨(hmem _).2 (.inl hraw), fun e he => (hmem _).2 (.inl (habove e he))⟩
    · exact absurd he TraitRef.safe_ne_raw
    · exact absurd he safeTraitOf_ne_category
    · obtain ⟨hxdef, hxkind⟩ := hadopts.defined
      obtain ⟨hraw, habove⟩ := hnames.closed homes hxdef hxkind hdef hkind hx
      exact ⟨(hmem _).2 (.inr ⟨module, hextended, .inr (.inr ⟨x, hadopts, hraw⟩)⟩), fun e he =>
        (hmem _).2 (.inr ⟨module, hextended, .inr (.inr ⟨x, hadopts, habove e he⟩)⟩)⟩
  case categories =>
    intro module hextended
    refine ⟨(hmem _).2 (.inr ⟨module, hextended, .inl rfl⟩),
      (hmem _).2 (.inr ⟨module, hextended, .inr (.inl rfl)⟩), fun e hadopts => ?_⟩
    exact (hmem _).2
      (.inr ⟨module, hextended, .inr (.inr ⟨e, hadopts, e, .refl, .inr rfl⟩)⟩)
  case exactly => exact hmem

end Scope

/-- Two classes above each other, a diamond of protocols that leads back to its
start, and categories of two modules that adopt some of the protocols again. -/
def diamondUnit : TranslationUnit where
  children :=
    [.implicit "p:Top" "Top" (.protocol [] ["Left"]),
     .implicit "p:Left" "Left" (.protocol [] ["Top"]),
     .implicit "p:Right" "Right" (.protocol [] ["Top"]),
     .implicit "c:Node" "Node" (.interface [] ["Left", "Right"] (some "c:Leaf") []),
     .implicit "c:Leaf" "Leaf" (.interface [] ["Right"] (some "c:Node") []),
     .implicit "k:1" "Near" (.category "Leaf" [] ["Left"]),
     .inFile "ui.h" "p:Far" "Far" (.protocol [] ["Right"]),
     .inFile "ui.h" "k:2" "Away" (.category "Leaf" [] ["Far", "Top"])]

/-- The class `Leaf` of this unit implements what is above it. -/
theorem leaf_coherent :
    ∃ s plan cls, Scope.ofUnit diamondUnit uiRules = .ok s ∧ s.plan = .ok plan
      ∧ s.NamesDistinct ∧ cls ∈ s.table.definitions ∧ cls.name = "Leaf"
      ∧ cls.isInterface = true ∧ s.Coherent plan cls := by
  have hok : ((Scope.ofUnit diamondUnit uiRules).bind Scope.plan).isOk = true := by cbv
  obtain ⟨s, plan, hs, hp⟩ := Scope.exists_plan_of_isOk hok
  obtain ⟨htable, _⟩ := Scope.ofUnit_eq_ok hs
  have hunique : ∀ d ∈ diamondUnit.children, ∀ e ∈ diamondUnit.children,
      d.name = e.name → d = e := by decide
  have hmem : ∀ d ∈ s.table.definitions, d ∈ diamondUnit.children := fun d hd =>
    Table.mem_children_of_ofUnit htable d (List.mem_append_left _ hd)
  have hnames : s.NamesDistinct :=
    ⟨fun d hd e he _ _ _ h => hunique d (hmem d hd) e (hmem e he) h,
      fun d hd e he _ _ _ h => hunique d (hmem d hd) e (hmem e he) h⟩
  have hleaf : ∃ cls ∈ s.table.definitions, cls.name = "Leaf" ∧ cls.isInterface = true := by
    have hdefs : Table.ofUnit diamondUnit = .ok ⟨diamondUnit.children, []⟩ := by rfl
    rw [hdefs] at htable
    injection htable with htable
    rw [← htable]
    decide
  obtain ⟨cls, hd, hname, hi⟩ := hleaf
  exact ⟨s, plan, cls, hs, hp, hnames, hd, hname, hi, Scope.plan_coherent hs hp hnames hd hi⟩

end ObjcBindings
