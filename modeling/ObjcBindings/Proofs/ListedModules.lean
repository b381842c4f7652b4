/-
  ObjcBindings.Proofs.ListedModules
  ────────────────────────────────
  **THE MODULES THAT ARE SHOWN ARE THOSE THAT ARE WRITTEN.**

  A unit can be inspected before bindings are written: its modules are shown
  with their containers, from one pass over the definitions.  A plan sorts the
  same definitions in passes of its own, between which it drops, merges and
  finishes containers.  For every module both come to the same:

      Scope.shown    — the defined containers of a module
      Matches        — the listing of a module and the module of the plan

    • `moduleListings_match` — a module's listing matches its plan,
    • `finishes_moduleAt` — a module that a plan lacks is one without contents.

  Categories are shown one by one, and planned as one container for each class
  of another module; those of the module's own classes have none.
-/
import ObjcBindings.Command.Report
import ObjcBindings.Proofs.CategoryMerging
import ObjcBindings.Proofs.PlacedOnce

namespace ObjcBindings

open Text (NameSet)

/-! ## §1. What has to hold. -/

namespace Report

/-- The listing of a module that has the containers. -/
def ModuleListing.ofContainers (module : String) (containers : List Decl) : ModuleListing where
  name := module
  interfaces := (containers.filter Decl.isInterface).map Decl.displayName
  protocols := (containers.filter Decl.isProtocol).map Decl.displayName
  categories := (containers.filter fun d => !d.isInterface && !d.isProtocol).map Decl.displayName

/-- What is listed under a module: nothing if it has no listing. -/
def listingAt (listings : List ModuleListing) (module : String) : ModuleListing :=
  (listings.find? (·.name == module)).getD ⟨module, [], [], []⟩

end Report

/-- What a plan has for a module: nothing if it lacks the module. -/
def Plan.moduleAt (plan : Plan) (name : String) : ModulePlan :=
  (plan.module? name).getD { name }

namespace Scope

open Report (ModuleListing listingAt)

/-- The defined containers of a module, in order. -/
def shown (s : Scope) (module : String) : List Decl :=
  s.table.definitions.filter fun d => d.isContainer && s.isAt module d

/-- The listing and the plan of a module match. -/
structure Matches (s : Scope) (plan : Plan) (listings : List ModuleListing) (module : String) :
    Prop where
  /-- The listing shows the containers of the module. -/
  listed : listingAt listings module = .ofContainers module (s.shown module)
  interfaces : (listingAt listings module).interfaces
    = (plan.moduleAt module).interfaces.map fun c => c.decl.name
  protocols : (listingAt listings module).protocols
    = (plan.moduleAt module).protocols.map fun c => c.decl.name
  /-- A class has a container for categories if a category of the class is
  shown in the module, and the class is shown in another. -/
  categories : ∀ cls, (∃ c ∈ (plan.moduleAt module).categories, c.decl = cls) ↔
    (∃ k ∈ s.shown module, s.extended? k = some cls)
      ∧ ∃ other, other ≠ module ∧ cls ∈ s.shown other

variable {s : Scope} {plan : Plan} {module : String}

/-! ## §2. Listings. -/

/-- Containers that are assigned have modules, with which they are paired. -/
theorem assigned_eq_ok {pairs : List (String × Decl)} {ds : List Decl}
    (h : Report.assigned s.rules ds = .ok pairs) :
    pairs = ds.map (fun d => (s.home d, d)) ∧ ∀ d ∈ ds, s.moduleOf d = .ok (s.home d) := by
  induction ds generalizing pairs with
  | nil =>
      cases h
      exact ⟨rfl, fun _ hd => absurd hd List.not_mem_nil⟩
  | cons d ds ih =>
      unfold Report.assigned at h
      cases hmodule : Layout.moduleOf s.rules d with
      | error e =>
          rw [hmodule] at h
          cases h
      | ok module =>
          rw [hmodule] at h
          obtain ⟨rest, hrest, rfl⟩ := map_eq_ok_iff.1 h
          obtain ⟨rfl, hhomes⟩ := ih hrest
          have hhome : s.home d = module := home_of_moduleOf hmodule
          refine ⟨by rw [List.map_cons, hhome], List.forall_mem_cons.2 ⟨?_, hhomes⟩⟩
          rw [hhome]
          exact hmodule

/-- The names that are listed are those of the containers at home. -/
theorem namesIn_home (ds : List Decl) (module : String) (test : Decl → Bool) :
    Report.namesIn (ds.map fun d => (s.home d, d)) module test
      = ((ds.filter fun d => s.home d == module).filter test).map Decl.displayName := by
  rw [Report.namesIn, List.filter_map, List.map_map, List.filter_filter]
  congr 1
  exact List.filter_congr fun d _ => Bool.and_comm _ _

/-- Every defined container has its home as module. -/
def HousesContainers (s : Scope) : Prop :=
  ∀ d ∈ s.table.definitions, d.isContainer = true → s.moduleOf d = .ok (s.home d)

/-- Modules can be listed only if all containers have one. -/
theorem housesContainers_of_moduleListings {listings : List ModuleListing}
    (h : Report.moduleListings s.table s.rules = .ok listings) : s.HousesContainers := by
  unfold Report.moduleListings at h
  obtain ⟨pairs, hassigned, _⟩ := bind_eq_ok_iff.1 h
  intro d hd hc
  exact (assigned_eq_ok hassigned).2 d (List.mem_filter.2 ⟨hd, hc⟩)

/-- The containers shown in a module are those at home. -/
theorem shown_eq (hhouses : s.HousesContainers) (module : String) :
    s.shown module
      = (s.table.definitions.filter Decl.isContainer).filter fun d => s.home d == module := by
  rw [shown, List.filter_filter]
  apply List.filter_congr
  intro d hd
  cases hc : d.isContainer with
  | false => rw [Bool.false_and, Bool.and_false]
  | true => rw [isAt_eq (hhouses d hd hc), Bool.and_comm]

/-- **The listing of a module shows its containers**, and nothing if there are
none. -/
theorem listingAt_eq {listings : List ModuleListing}
    (h : Report.moduleListings s.table s.rules = .ok listings) (module : String) :
    listingAt listings module = .ofContainers module (s.shown module) := by
  have hshown := shown_eq (housesContainers_of_moduleListings h) module
  unfold Report.moduleListings at h
  obtain ⟨pairs, hassigned, h⟩ := bind_eq_ok_iff.1 h
  obtain ⟨rfl, _⟩ := assigned_eq_ok hassigned
  cases h
  rw [listingAt, find?_map_key fun _ => rfl, List.map_map]
  simp only [namesIn_home, ← hshown]
  split
  · rfl
  · next hnot =>
    -- A module that is not listed is that of no container.
    rw [NameSet.mem_ofList] at hnot
    have hnone : s.shown module = [] := hshown.trans (filter_key_eq_nil hnot)
    rw [hnone]
    rfl

/-! ## §3. Modules of the plan. -/

/-- A module that no placement names has no contents. -/
theorem draft_of_not_mem (h : module ∉ s.moduleNames) : s.draft module = { name := module } := by
  have hplaced : module ∉ s.placements.map Placed.module := fun hmem =>
    h (NameSet.mem_ofList.2 (List.mem_append_left _ (List.mem_cons_of_mem _ hmem)))
  have hcategories : module ∉ s.categoryPlacements.map PlacedCategory.module := fun hmem =>
    h (NameSet.mem_ofList.2 (List.mem_append_right _ hmem))
  rw [draft, draftModule, filter_key_eq_nil hplaced, filter_key_eq_nil hcategories]
  rfl

/-- **What a plan has for a module is its draft, finished**, also if it lacks
the module. -/
theorem finishes_moduleAt (hm : s.Modules plan) (module : String) :
    s.supertraits.Finishes (s.draft module) (plan.moduleAt module) := by
  unfold Plan.moduleAt Plan.module?
  cases hfind : plan.modules.find? (·.name == module) with
  | some p =>
      have hname : p.name = module := by simpa using List.find?_some hfind
      rw [Option.getD_some, ← hname]
      exact hm.finished p (List.mem_of_find?_eq_some hfind)
  | none =>
      have hnot : module ∉ s.moduleNames := by
        intro hmem
        obtain ⟨p, hp, hname⟩ := hm.exists_of_mem hmem
        exact List.find?_eq_none.1 hfind p hp (beq_iff_eq.2 hname)
      rw [Option.getD_none, draft_of_not_mem hnot]
      exact ⟨rfl, rfl, rfl, rfl, rfl, [], rfl⟩

/-- A module has the interfaces that are at home there. -/
theorem interfaces_moduleAt (hs : s.WellFormed) (hm : s.Modules plan) (module : String) :
    (plan.moduleAt module).interfaces.map Container.decl
      = s.table.definitions.filter fun d => d.isInterface && s.home d == module := by
  apply map_decl_of_forget (f := s.interfaceContainer) _ fun _ => rfl
  rw [(finishes_moduleAt hm module).forget_interfaces, draft_interfaces hs, List.map_map]
  rfl

/-- A module has the protocols that are at home there. -/
theorem protocols_moduleAt (hm : s.Modules plan) (module : String) :
    (plan.moduleAt module).protocols.map Container.decl
      = s.table.definitions.filter fun d => d.isProtocol && s.home d == module := by
  apply map_decl_of_forget (f := s.protocolContainer) _ fun _ => rfl
  rw [(finishes_moduleAt hm module).forget_protocols, draft_protocols, List.map_map]
  rfl

/-- A module has a container for each class that its categories visit. -/
theorem categories_moduleAt (hs : s.WellFormed) (hm : s.Modules plan) (module : String) :
    (plan.moduleAt module).categories.map Container.decl = (s.visited module).dedup := by
  apply map_decl_of_forget (f := s.categoryContainer module) _ fun _ => rfl
  rw [(finishes_moduleAt hm module).forget_categories, draft_categories hs, List.map_map]
  rfl

/-! ## §4. Both sides. -/

/-- The containers shown for a module are those at home there. -/
theorem mem_shown_iff (hhouses : s.HousesContainers) {d : Decl} :
    d ∈ s.shown module ↔
      d ∈ s.table.definitions ∧ d.isContainer = true ∧ s.home d = module := by
  rw [shown_eq hhouses, List.mem_filter, List.mem_filter, beq_iff_eq, and_assoc]

/-- The containers of a kind that a module shows, if these are shown by their
own names and planned at home. -/
theorem names_shown (hhouses : s.HousesContainers) {test : Decl → Bool}
    (hcontainer : ∀ {d}, test d = true → d.isContainer = true)
    (hname : ∀ {d}, test d = true → d.displayName = d.name) {cs : List Container}
    (hcs : cs.map Container.decl
      = s.table.definitions.filter fun d => test d && s.home d == module) :
    ((s.shown module).filter test).map Decl.displayName = cs.map fun c => c.decl.name := by
  have hsame : (s.shown module).filter test = cs.map Container.decl := by
    rw [hcs, shown_eq hhouses, List.filter_filter, List.filter_filter]
    apply List.filter_congr
    intro d _
    cases ht : test d with
    | false => rfl
    | true => rw [hcontainer ht, Bool.and_true]
  rw [hsame, List.map_map]
  apply List.map_congr_left
  intro c hc
  have hshown : c.decl ∈ (s.shown module).filter test := hsame ▸ List.mem_map_of_mem hc
  exact hname (List.mem_filter.1 hshown).2

/-- An interface is shown under its name. -/
theorem displayName_of_isInterface {d : Decl} (h : d.isInterface = true) :
    d.displayName = d.name := by
  cases hk : d.kind <;> simp_all [Decl.isInterface, Decl.displayName]

theorem displayName_of_isProtocol {d : Decl} (h : d.isProtocol = true) :
    d.displayName = d.name := by
  cases hk : d.kind <;> simp_all [Decl.isProtocol, Decl.displayName]

/-- **A class is visited from a module that shows a category of it but not the
class.** -/
theorem visited_iff_shown (hs : s.WellFormed) (hhouses : s.HousesContainers) {cls : Decl} :
    cls ∈ s.visited module ↔
      (∃ k ∈ s.shown module, s.extended? k = some cls)
        ∧ ∃ other, other ≠ module ∧ cls ∈ s.shown other := by
  rw [mem_visited_iff]
  constructor
  · rintro ⟨hforeign, hsome⟩
    obtain ⟨k, hk⟩ := List.exists_mem_of_ne_nil _ hsome
    obtain ⟨hdef, hcontainer⟩ := container_of_categoriesOf hk
    obtain ⟨hext, hhome⟩ := Bool.and_eq_true_iff.1 (List.mem_filter.1 hk).2
    have hext : s.extended? k = some cls := of_decide_eq_true hext
    obtain ⟨hcls, hi⟩ := defined_of_extended? hs hext
    exact ⟨⟨k, (mem_shown_iff hhouses).2 ⟨hdef, hcontainer, beq_iff_eq.1 hhome⟩, hext⟩,
      s.home cls, hforeign,
      (mem_shown_iff hhouses).2 ⟨hcls, isContainer_of_isInterface hi, rfl⟩⟩
  · rintro ⟨⟨k, hk, hext⟩, other, hne, hcls⟩
    obtain ⟨hdef, _, hhome⟩ := (mem_shown_iff hhouses).1 hk
    obtain ⟨_, _, rfl⟩ := (mem_shown_iff hhouses).1 hcls
    refine ⟨hne, List.ne_nil_of_mem (a := k) (List.mem_filter.2 ⟨hdef, ?_⟩)⟩
    rw [hext, hhome, beq_self_eq_true, decide_eq_true rfl, Bool.and_true]

/-! ## §5. The theorem. -/

/-- **What is shown of a module is what its plan has.** -/
theorem moduleListings_match {unit : TranslationUnit} {rules : List ModuleRule} {table : Table}
    {listings : List ModuleListing} (htable : Table.ofUnit unit = .ok table)
    (hlistings : Report.moduleListings table rules = .ok listings)
    (hunit : ofUnit unit rules = .ok s) (hplan : s.plan = .ok plan) (module : String) :
    s.Matches plan listings module := by
  have hs := wellFormed_of_ofUnit hunit
  have hm := modules_of_plan hs hplan
  -- The scope has the table and the rules that the listings are made from.
  obtain ⟨htable', _, rfl, _⟩ := ofUnit_eq_ok hunit
  obtain rfl : table = s.table := Except.ok.inj (htable.symm.trans htable')
  have hhouses := housesContainers_of_moduleListings hlistings
  have listed := listingAt_eq hlistings module
  constructor
  case listed => exact listed
  case interfaces =>
    rw [listed]
    exact names_shown hhouses isContainer_of_isInterface displayName_of_isInterface
      (interfaces_moduleAt hs hm module)
  case protocols =>
    rw [listed]
    exact names_shown hhouses isContainer_of_isProtocol displayName_of_isProtocol
      (protocols_moduleAt hm module)
  case categories =>
    intro cls
    rw [← visited_iff_shown hs hhouses, ← List.mem_dedup, ← categories_moduleAt hs hm,
      List.mem_map]

end Scope

/-- The shapes' own module and the module `ui` with categories of them are shown as
they are planned. -/
theorem shape_listings_match :
    ∃ table listings s plan, Table.ofUnit shapeUnit = .ok table
      ∧ Report.moduleListings table uiRules = .ok listings
      ∧ Scope.ofUnit shapeUnit uiRules = .ok s ∧ s.plan = .ok plan
      ∧ s.Matches plan listings coreModule ∧ s.Matches plan listings "ui" := by
  have hok : ((Scope.ofUnit shapeUnit uiRules).bind Scope.plan).isOk = true := by cbv
  obtain ⟨s, plan, hs, hp⟩ := Scope.exists_plan_of_isOk hok
  have hlisted : (Table.ofUnit shapeUnit >>= fun table =>
      Report.moduleListings table uiRules).isOk = true := by cbv
  obtain ⟨listings, hlistings⟩ := exists_eq_ok_of_isOk hlisted
  obtain ⟨table, htable, hlistings⟩ := bind_eq_ok_iff.1 hlistings
  exact ⟨table, listings, s, plan, htable, hlistings, hs, hp,
    Scope.moduleListings_match htable hlistings hs hp coreModule,
    Scope.moduleListings_match htable hlistings hs hp "ui"⟩

end ObjcBindings
