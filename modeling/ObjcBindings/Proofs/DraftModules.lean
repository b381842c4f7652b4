/-
  ObjcBindings.Proofs.DraftModules
  ────────────────────────────────
  **WHAT EACH MODULE OF A PLAN CONTAINS.**

  A module is drafted from the placements that name it, and then gets its
  supertraits.  Here the drafts are given part by part:

    • interfaces — each with the categories of its own module merged into it,
    • protocols — each on its own,
    • categories — one container for each class of another module, in the
      order in which the last category of each class is defined,
    • structs and aliases — by membership.

  Merging is a fold that moves a container to the end; what it ends with is
  found by induction on the categories from the end.
-/
import ObjcBindings.Proofs.ListSelections
import ObjcBindings.Proofs.Placement
import Mathlib.Data.List.Induction

namespace ObjcBindings

open Text (NameSet)

namespace Scope

variable {s : Scope}

/-! ## §1. The containers of a module. -/

/-- The categories of a module that extend a class, in the order of their
definitions. -/
def categoriesOf (s : Scope) (module : String) (cls : Decl) : List Decl :=
  s.table.definitions.filter fun k => s.extended? k = some cls && s.home k == module

/-- The classes of other modules that the categories of a module extend, one
for each category. -/
def visited (s : Scope) (module : String) : List Decl :=
  s.table.definitions.filterMap fun k =>
    (s.extended? k).filter fun cls => s.home k == module && s.home cls != module

/-- The definition of the class above an interface. -/
def above? (s : Scope) (d : Decl) : Option Decl :=
  match d.kind with
  | .interface _ _ superclass _ => superclass.bind s.definedInterface?
  | _ => none

/-- An interface with the categories of its own module. -/
noncomputable def interfaceContainer (s : Scope) (d : Decl) : Container :=
  s.containerOf .interface d (s.home d) (s.above? d) (d :: s.categoriesOf (s.home d) d)

/-- A protocol. -/
noncomputable def protocolContainer (s : Scope) (d : Decl) : Container :=
  s.containerOf .protocol d (s.home d) none [d]

/-- The categories of a module that extend a class of another. -/
noncomputable def categoryContainer (s : Scope) (module : String) (cls : Decl) : Container :=
  s.containerOf .category cls (s.home cls) none (s.categoriesOf module cls)

/-- No definition is listed twice. -/
theorem WellFormed.nodup_definitions (hs : s.WellFormed) : s.table.definitions.Nodup :=
  hs.table.distinct.of_map

/-- A category extends a defined interface. -/
theorem defined_of_extended? (hs : s.WellFormed) {k cls : Decl} (h : s.extended? k = some cls) :
    cls ∈ s.table.definitions ∧ cls.isInterface = true := by
  unfold extended? at h
  split at h
  · obtain ⟨named, _, hcls⟩ := Option.bind_eq_some_iff.1 h
    obtain ⟨hdef, _, hkind⟩ := (definedInterface?_eq_some_iff hs).1 hcls
    exact ⟨hdef, hkind⟩
  · cases h

/-! ## §2. Merging categories. -/

/-- The categories of a list that extend a class. -/
def extending (s : Scope) (ks : List Decl) (cls : Decl) : List Decl :=
  ks.filter fun k => s.extended? k = some cls

/-- The container of the categories of a list that extend a class. -/
noncomputable def merged (s : Scope) (ks : List Decl) (cls : Decl) : Container :=
  s.containerOf .category cls (s.home cls) none (s.extending ks cls)

/-- A category of another class does not extend this one. -/
theorem extending_concat_of_ne {ks : List Decl} {k cls : Decl} (h : s.extended? k ≠ some cls) :
    s.extending (ks ++ [k]) cls = s.extending ks cls := by
  rw [extending, List.filter_append, List.filter_cons_of_neg (by simpa using h)]
  simp [extending]

/-- A category of the class extends it, after the others. -/
theorem extending_concat_of_eq {ks : List Decl} {k cls : Decl} (h : s.extended? k = some cls) :
    s.extending (ks ++ [k]) cls = s.extending ks cls ++ [k] := by
  rw [extending, List.filter_append, List.filter_cons_of_pos (by simpa using h)]
  rfl

/-- A category joins the container of its class, which moves to the end. -/
theorem mergeCategory_of_some {cs : List Container} {c old : Container}
    (h : cs.find? (·.decl.usr == c.decl.usr) = some old) :
    mergeCategory cs c = cs.filter (·.decl.usr != c.decl.usr) ++ [old.absorb c] := by
  rw [mergeCategory, h]

/-- The first category of a class has a container of its own. -/
theorem mergeCategory_of_none {cs : List Container} {c : Container}
    (h : cs.find? (·.decl.usr == c.decl.usr) = none) : mergeCategory cs c = cs ++ [c] := by
  rw [mergeCategory, h]

/-- **One step of merging**: the container of the class moves to the end with
the new category in it, the others stay. -/
theorem mergeCategory_merged (hs : s.WellFormed) {ks classes : List Decl} {k cls : Decl}
    (hclasses : ∀ c ∈ classes, c ∈ s.table.definitions) (hcls : cls ∈ s.table.definitions)
    (hk : s.extended? k = some cls) (hin : cls ∈ classes ∨ s.extending ks cls = []) :
    mergeCategory (classes.map (s.merged ks))
        (s.containerOf .category cls (s.home cls) none [k])
      = (classes.filter (· ≠ cls) ++ [cls]).map (s.merged (ks ++ [k])) := by
  have husr : ∀ c ∈ classes, c.usr = cls.usr ↔ c = cls := fun c hc =>
    ⟨hs.table.eq_of_usr_eq (hclasses c hc) hcls, congrArg Decl.usr⟩
  -- Containers of other classes do not see the new category.
  have hothers : (classes.map (s.merged ks)).filter (·.decl.usr != cls.usr)
      = (classes.filter (· ≠ cls)).map (s.merged (ks ++ [k])) := by
    rw [List.filter_map]
    have hfilter : classes.filter ((fun c : Container => c.decl.usr != cls.usr) ∘ s.merged ks)
        = classes.filter (· ≠ cls) := by
      apply List.filter_congr
      intro c hc
      show (c.usr != cls.usr) = decide (c ≠ cls)
      rw [bne, beq_eq_decide, decide_not, decide_eq_decide.2 (husr c hc)]
    rw [hfilter]
    apply List.map_congr_left
    intro c hc
    have hc' : c ≠ cls := of_decide_eq_true (List.mem_filter.1 hc).2
    have hne : s.extended? k ≠ some c := by
      rw [hk]
      exact fun he => hc' (Option.some.inj he).symm
    rw [merged, merged, extending_concat_of_ne hne]
  have hnew : s.merged (ks ++ [k]) cls
      = s.containerOf .category cls (s.home cls) none (s.extending ks cls ++ [k]) := by
    rw [merged, extending_concat_of_eq hk]
  rw [List.map_append, ← hothers, List.map_cons, List.map_nil, hnew]
  cases hfind : classes.find? ((fun c : Container => c.decl.usr == cls.usr) ∘ s.merged ks) with
  | some old =>
      have heq := List.find?_some hfind
      have hold : old = cls := (husr old (List.mem_of_find?_eq_some hfind)).1 (beq_iff_eq.1 heq)
      subst hold
      rw [mergeCategory_of_some (List.find?_map.trans (congrArg _ hfind)), merged,
        absorb_containerOf]
      rfl
  | none =>
      -- The class has no container yet, so no category before this one extends it.
      have hnot : cls ∉ classes := fun hmem => by
        have := List.find?_eq_none.1 hfind cls hmem
        exact this (beq_self_eq_true cls.usr)
      have hempty := hin.resolve_left hnot
      rw [hempty, List.nil_append, mergeCategory_of_none (List.find?_map.trans (congrArg _ hfind))]
      congr 1
      refine (List.filter_eq_self.2 ?_).symm
      intro c hc
      obtain ⟨x, hx, rfl⟩ := List.mem_map.1 hc
      show (x.usr != cls.usr) = true
      rw [bne_iff_ne]
      exact fun he => hnot ((husr x hx).1 he ▸ hx)

/-- **What merging ends with**: one container for each class, in the order of
the last category of each. -/
theorem foldl_mergeCategory (hs : s.WellFormed) (ks : List Decl) :
    (ks.filterMap s.categoryPlacement?).foldl (fun cs p => mergeCategory cs p.container) []
      = (ks.filterMap s.extended?).dedup.map (s.merged ks) := by
  induction ks using List.reverseRecOn with
  | nil => rfl
  | append_singleton ks k ih =>
      rw [List.filterMap_append, List.filterMap_append, List.foldl_append, ih]
      -- A last definition that extends no class changes no container.
      cases hk : s.extended? k with
      | none =>
          have hplace : s.categoryPlacement? k = none := by
            rw [categoryPlacement?, hk, Option.map_none]
          rw [List.filterMap_cons_none hplace, List.filterMap_cons_none hk, List.filterMap_nil,
            List.filterMap_nil, List.append_nil, List.foldl_nil]
          apply List.map_congr_left
          intro cls _
          rw [merged, merged, extending_concat_of_ne (by simp [hk])]
      | some cls =>
          have hplace : s.categoryPlacement? k
              = some ⟨s.home k, s.containerOf .category cls (s.home cls) none [k]⟩ := by
            rw [categoryPlacement?, hk, Option.map_some]
          rw [List.filterMap_cons_some hplace, List.filterMap_cons_some hk, List.filterMap_nil,
            List.filterMap_nil, List.foldl_cons, List.foldl_nil, dedup_concat]
          -- One step of merging, which needs the class to be there or untouched.
          apply mergeCategory_merged hs _ (defined_of_extended? hs hk).1 hk
          · by_cases hmem : cls ∈ ks.filterMap s.extended?
            · exact .inl (List.mem_dedup.2 hmem)
            · refine .inr (List.filter_eq_nil_iff.2 fun x hx hcls => hmem ?_)
              exact List.mem_filterMap.2 ⟨x, hx, by simpa using hcls⟩
          · intro c hc
            obtain ⟨x, _, hx⟩ := List.mem_filterMap.1 (List.mem_dedup.1 hc)
            exact (defined_of_extended? hs hx).1

/-! ## §3. Drafts, part by part. -/

/-- The draft of a module. -/
noncomputable def draft (s : Scope) (name : String) : ModulePlan :=
  draftModule s.placements s.categoryPlacements name

/-- Absorbing categories in order adds them to the sources. -/
theorem foldl_absorb (kind : ContainerKind) (target : Decl) (module : String)
    (superclass : Option Decl) (placed : Decl → PlacedCategory)
    (hplaced : ∀ k, ∃ cls, (placed k).container
      = s.containerOf .category cls (s.home cls) none [k]) (sources ks : List Decl) :
    (ks.map placed).foldl (fun c p => c.absorb p.container)
        (s.containerOf kind target module superclass sources)
      = s.containerOf kind target module superclass (sources ++ ks) := by
  induction ks generalizing sources with
  | nil => simp
  | cons k ks ih =>
      obtain ⟨cls, hcls⟩ := hplaced k
      rw [List.map_cons, List.foldl_cons, hcls, absorb_containerOf, ih, List.append_assoc,
        List.singleton_append]

/-- The categories at home that extend a class are those of its module. -/
theorem filter_categoryPlacements (hs : s.WellFormed) {d : Decl}
    (hd : d ∈ s.table.definitions) :
    (s.categoryPlacements.filter (·.module == s.home d)).filter
        (fun p => p.isAtHome && p.container.decl.usr == d.usr)
      = (s.categoriesOf (s.home d) d).map fun k =>
          ⟨s.home k, s.containerOf .category d (s.home d) none [k]⟩ := by
  rw [categoryPlacements, List.filter_filterMap, List.filter_filterMap, categoriesOf,
    map_filter_eq_filterMap]
  apply List.filterMap_congr
  intro k _
  cases hk : s.extended? k with
  | none => simp [categoryPlacement?, hk]
  | some cls =>
      -- Containers are matched by USR, which tells definitions apart.
      have hcls : cls.usr = d.usr ↔ cls = d :=
        ⟨hs.table.eq_of_usr_eq (defined_of_extended? hs hk).1 hd, congrArg Decl.usr⟩
      by_cases he : cls = d
      · subst he
        by_cases hh : s.home k = s.home cls
        · simp [categoryPlacement?, hk, hh, PlacedCategory.isAtHome, containerOf]
        · simp [categoryPlacement?, hk, hh, PlacedCategory.isAtHome, containerOf]
      · have hne : ¬ cls.usr = d.usr := fun h => he (hcls.1 h)
        simp [categoryPlacement?, hk, he, hne, containerOf]

/-- An interface takes in the categories of its own module. -/
theorem withCategories_container (hs : s.WellFormed) {d : Decl}
    (hd : d ∈ s.table.definitions) (superclass : Option Decl) :
    withCategories (s.categoryPlacements.filter (·.module == s.home d))
        (s.containerOf .interface d (s.home d) superclass [d])
      = s.containerOf .interface d (s.home d) superclass
          (d :: s.categoriesOf (s.home d) d) := by
  unfold withCategories
  rw [show (s.containerOf .interface d (s.home d) superclass [d]).decl = d from rfl,
    filter_categoryPlacements hs hd, foldl_absorb]
  · rfl
  · exact fun _ => ⟨d, rfl⟩

/-- A selection from the items of a module, as a selection from the
definitions and the announced structs. -/
theorem filterMap_items {β : Type} (f : PlanItem → Option β) (name : String) :
    ((s.placements.filter (·.module == name)).map Placed.item).filterMap f
      = (s.table.definitions.filterMap fun d =>
          if s.home d == name then (s.item? d).bind f else none)
        ++ s.announced.filterMap fun d =>
          if s.home d == name then f (.struct ⟨d, false⟩) else none := by
  rw [placements, List.filter_append, List.map_append, List.filterMap_append, List.filterMap_map,
    List.filterMap_map, List.filterMap_filter, List.filterMap_filter, List.filterMap_filterMap,
    List.filterMap_map]
  congr 1
  apply List.filterMap_congr
  intro d _
  rw [placement?]
  cases s.item? d <;> simp

/-- What selects no struct selects from the definitions only. -/
theorem filterMap_items_of_definitions {β : Type} {f : PlanItem → Option β}
    (hf : ∀ st, f (.struct st) = none) (name : String) :
    ((s.placements.filter (·.module == name)).map Placed.item).filterMap f
      = s.table.definitions.filterMap fun d =>
          if s.home d == name then (s.item? d).bind f else none := by
  have hstubs : (s.announced.filterMap fun d =>
      if s.home d == name then f (.struct ⟨d, false⟩) else none) = [] := by simp [hf]
  rw [filterMap_items, hstubs, List.append_nil]

/-- **The interfaces of a module**, each with the categories of the module. -/
theorem draft_interfaces (hs : s.WellFormed) (name : String) :
    (s.draft name).interfaces
      = (s.table.definitions.filter fun d => d.isInterface && s.home d == name).map
          s.interfaceContainer := by
  rw [map_filter_eq_filterMap]
  show ((s.placements.filter (·.module == name)).map Placed.item).filterMap _ = _
  rw [filterMap_items_of_definitions fun _ => rfl]
  apply List.filterMap_congr
  intro d hd
  by_cases hh : s.home d = name
  · subst hh
    cases hk : d.kind with
    | interface children protocols superclass typeParams =>
        have habove : s.above? d = superclass.bind s.definedInterface? := by rw [above?, hk]
        have hitem : s.item? d = some (.interface
            (s.containerOf .interface d (s.home d) (s.above? d) [d])) := by
          rw [item?, hk, habove]
        simp only [beq_self_eq_true, if_true, hitem, Option.bind_some, Decl.isInterface, hk,
          Bool.and_true]
        rw [withCategories_container hs hd, interfaceContainer]
    | _ => grind [item?, Decl.isInterface]
  · simp [hh]

/-- **The protocols of a module.** -/
theorem draft_protocols (name : String) :
    (s.draft name).protocols
      = (s.table.definitions.filter fun d => d.isProtocol && s.home d == name).map
          s.protocolContainer := by
  rw [map_filter_eq_filterMap]
  show ((s.placements.filter (·.module == name)).map Placed.item).filterMap _ = _
  rw [filterMap_items_of_definitions fun _ => rfl]
  apply List.filterMap_congr
  intro d hd
  by_cases hh : s.home d = name
  · subst hh
    cases hk : d.kind with
    | protocol children protocols =>
        have hitem : s.item? d = some (.protocol (s.protocolContainer d)) := by
          rw [item?, hk, protocolContainer]
        simp [hitem, Decl.isProtocol, hk]
    | _ => grind [item?, Decl.isProtocol]
  · simp [hh]

/-- **The categories of a module**, one container for each class of another
module, in the order of the last category of each. -/
theorem draft_categories (hs : s.WellFormed) (name : String) :
    (s.draft name).categories = (s.visited name).dedup.map (s.categoryContainer name) := by
  show (((s.categoryPlacements.filter (·.module == name)).filter (!·.isAtHome)).foldl
    (fun cs p => mergeCategory cs p.container) []) = _
  -- The categories of the module that visit it from other classes' modules.
  let visitors := s.table.definitions.filter fun k =>
    (s.extended? k).any fun cls => s.home k == name && s.home cls != name
  have hplaced : (s.categoryPlacements.filter (·.module == name)).filter (!·.isAtHome)
      = visitors.filterMap s.categoryPlacement? := by
    rw [categoryPlacements, List.filter_filterMap, List.filter_filterMap, List.filterMap_filter]
    apply List.filterMap_congr
    intro k _
    cases hk : s.extended? k with
    | none => simp [categoryPlacement?, hk]
    | some cls =>
        by_cases hh : s.home k = name
        · subst hh
          by_cases hc : s.home k = s.home cls
          · simp [categoryPlacement?, hk, PlacedCategory.isAtHome, containerOf, hc]
          · simp [categoryPlacement?, hk, PlacedCategory.isAtHome, containerOf, hc,
              Ne.symm hc]
        · simp [categoryPlacement?, hk, hh]
  have hclasses : visitors.filterMap s.extended? = s.visited name := by
    rw [visited, List.filterMap_filter]
    apply List.filterMap_congr
    intro k _
    cases hk : s.extended? k <;> simp [Option.filter]
  rw [hplaced, foldl_mergeCategory hs, hclasses]
  apply List.map_congr_left
  intro cls hcls
  obtain ⟨k, _, hk⟩ := List.mem_filterMap.1 (List.mem_dedup.1 hcls)
  obtain ⟨_, hvisit⟩ := Option.filter_eq_some_iff.1 hk
  have hforeign : (s.home cls != name) = true := (Bool.and_eq_true_iff.1 hvisit).2
  have hextending : s.extending visitors cls = s.categoriesOf name cls := by
    rw [extending, List.filter_filter, categoriesOf]
    apply List.filter_congr
    intro x _
    by_cases hx : s.extended? x = some cls
    · simp [hx, hforeign]
    · simp [hx]
  rw [merged, categoryContainer, hextending]

/-- The item of an alias is the declaration itself. -/
theorem item?_eq_alias {d x : Decl} (h : s.item? d = some (.alias x)) : x = d := by
  unfold item? at h
  split at h
  · cases h
  · cases h
  · split at h <;> cases h
    rfl
  · split at h <;> cases h
  · split at h <;> cases h
    rfl
  · cases h

/-- A definition that becomes a struct is in use, and has a layout if it crosses
by value. -/
theorem item?_eq_struct {d : Decl} {st : StructPlan} (h : s.item? d = some (.struct st)) :
    st.decl = d ∧ d.usr ∈ s.used.structs ∧
      (st.isRepresentable = true ↔ s.Crosses .value (.record d.usr)) := by
  unfold item? at h
  split at h
  · cases h
  · cases h
  · split at h <;> cases h
  · split at h
    · next hused =>
      cases h
      exact ⟨rfl, hused, by simp⟩
    · cases h
  · split at h <;> cases h
  · cases h

/-- **The aliases of a module.** -/
theorem mem_draft_aliases {name : String} {d : Decl} :
    d ∈ (s.draft name).aliases ↔
      d ∈ s.table.definitions ∧ s.home d = name ∧ s.item? d = some (.alias d) := by
  show d ∈ ((s.placements.filter (·.module == name)).map Placed.item).filterMap _ ↔ _
  rw [filterMap_items_of_definitions fun _ => rfl, List.mem_filterMap]
  constructor
  · rintro ⟨x, hx, h⟩
    split at h
    · next hh =>
      obtain ⟨item, hitem, h⟩ := Option.bind_eq_some_iff.1 h
      split at h
      · cases h
        have he := item?_eq_alias hitem
        subst he
        exact ⟨hx, beq_iff_eq.1 hh, hitem⟩
      · cases h
    · cases h
  · rintro ⟨hd, hh, hitem⟩
    exact ⟨d, hd, by rw [if_pos (beq_iff_eq.2 hh), hitem]; rfl⟩

/-- **The structs of a module.** -/
theorem mem_draft_structs {name : String} {st : StructPlan} :
    st ∈ (s.draft name).structs ↔
      s.home st.decl = name ∧
        (st.decl ∈ s.table.definitions ∧ s.item? st.decl = some (.struct st)
          ∨ st.decl ∈ s.announced ∧ st.isRepresentable = false) := by
  show st ∈ ((s.placements.filter (·.module == name)).map Placed.item).filterMap _ ↔ _
  rw [filterMap_items, List.mem_append, List.mem_filterMap, List.mem_filterMap]
  constructor
  · -- A struct is a definition with its answer, or only announced.
    rintro (⟨x, hx, h⟩ | ⟨x, hx, h⟩)
    · split at h
      · next hh =>
        obtain ⟨item, hitem, h⟩ := Option.bind_eq_some_iff.1 h
        split at h
        · cases h
          obtain ⟨rfl, _⟩ := item?_eq_struct hitem
          exact ⟨beq_iff_eq.1 hh, .inl ⟨hx, hitem⟩⟩
        · cases h
      · cases h
    · split at h
      · next hh =>
        cases h
        exact ⟨beq_iff_eq.1 hh, .inr ⟨hx, rfl⟩⟩
      · cases h
  · rintro ⟨hh, ⟨hd, hitem⟩ | ⟨hd, hopen⟩⟩
    · exact .inl ⟨st.decl, hd, by rw [if_pos (beq_iff_eq.2 hh), hitem]; rfl⟩
    · refine .inr ⟨st.decl, hd, ?_⟩
      rw [if_pos (beq_iff_eq.2 hh), ← hopen]

/-! ## §4. The names of the modules. -/

/-- The names of all modules, in order. -/
noncomputable def moduleNames (s : Scope) : NameSet :=
  NameSet.ofList (coreModule :: s.placements.map Placed.module
    ++ s.categoryPlacements.map PlacedCategory.module)

/-- There is one draft for each module. -/
theorem drafts_eq_map (s : Scope) : s.drafts = s.moduleNames.map s.draft := rfl

/-- No module is drafted twice. -/
theorem nodup_moduleNames (s : Scope) : s.moduleNames.Nodup :=
  NameSet.nodup_ofList _

/-- The home of what has an item has a draft. -/
theorem home_mem_of_item {d : Decl} (hd : d ∈ s.table.definitions)
    (hitem : (s.item? d).isSome) : s.home d ∈ s.moduleNames := by
  obtain ⟨item, hitem⟩ := Option.isSome_iff_exists.1 hitem
  have hplaced : (⟨s.home d, item⟩ : Placed) ∈ s.placements :=
    List.mem_append_left _ (List.mem_filterMap.2 ⟨d, hd, by rw [placement?, hitem]; rfl⟩)
  exact NameSet.mem_ofList.2
    (List.mem_append_left _ (List.mem_cons_of_mem _ (List.mem_map.2 ⟨_, hplaced, rfl⟩)))

theorem home_mem_of_announced {d : Decl} (hd : d ∈ s.announced) : s.home d ∈ s.moduleNames := by
  have hplaced : s.announcedPlacement d ∈ s.placements :=
    List.mem_append_right _ (List.mem_map_of_mem hd)
  exact NameSet.mem_ofList.2
    (List.mem_append_left _ (List.mem_cons_of_mem _ (List.mem_map.2 ⟨_, hplaced, rfl⟩)))

theorem home_mem_of_extended {k cls : Decl} (hk : k ∈ s.table.definitions)
    (hext : s.extended? k = some cls) : s.home k ∈ s.moduleNames := by
  have hplaced : (⟨s.home k, s.containerOf .category cls (s.home cls) none [k]⟩ : PlacedCategory)
      ∈ s.categoryPlacements :=
    List.mem_filterMap.2 ⟨k, hk, by rw [categoryPlacement?, hext]; rfl⟩
  exact NameSet.mem_ofList.2 (List.mem_append_right _ (List.mem_map.2 ⟨_, hplaced, rfl⟩))

/-- An interface is always put somewhere. -/
theorem item?_of_isInterface {d : Decl} (h : d.isInterface = true) : (s.item? d).isSome := by
  cases hk : d.kind <;> simp_all [Decl.isInterface, item?]

/-- Interfaces and protocols are always put somewhere. -/
theorem item?_of_container {d : Decl} (h : d.isInterface = true ∨ d.isProtocol = true) :
    (s.item? d).isSome := by
  rcases h with h | h
  · exact item?_of_isInterface h
  · cases hk : d.kind <;> simp_all [Decl.isProtocol, item?]

end Scope

end ObjcBindings
