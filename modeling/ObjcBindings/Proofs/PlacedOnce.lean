/-
  ObjcBindings.Proofs.PlacedOnce
  ────────────────────────────────
  **A PLAN PLACES EVERY DECLARATION EXACTLY ONCE.**

  Definitions are placed in one pass and announced structs in another, by
  different criteria.  Together they cover what is in use, without overlap:

    • `Places` — a list of declarations is spread over the modules: each stands
      once, in the part of its own module, and the order is kept there,
    • `plan_placesOnce` — so are the interfaces, the protocols, the structs in
      use and the aliases, and the parts hold nothing else.

  Structs in use come in two rows, the defined ones in the order of their
  definitions and then the announced ones in the order of their USRs.
-/
import ObjcBindings.Proofs.ReachedDeclarations
import ObjcBindings.Proofs.WrittenTypes

namespace ObjcBindings

/-- The declaration is a record. -/
def Decl.isRecord (d : Decl) : Bool :=
  match d.kind with
  | .record _ _ => true
  | _ => false

namespace Scope

variable {s : Scope} {plan : Plan} {part : ModulePlan → List Decl} {ds : List Decl}

/-! ## §1. What has to hold. -/

/-- The declaration has the module. -/
def isAt (s : Scope) (name : String) (d : Decl) : Bool :=
  match s.moduleOf d with
  | .ok module => module == name
  | .error _ => false

/-- A part of every module of the plan holds the declarations `ds` of the
module. -/
structure Places (s : Scope) (plan : Plan) (part : ModulePlan → List Decl) (ds : List Decl) :
    Prop where
  /-- Each has a module, which the plan has. -/
  housed : ∀ d ∈ ds, ∃ p ∈ plan.modules, s.moduleOf d = .ok p.name
  /-- In their module they stand in their order. -/
  ordered : ∀ p ∈ plan.modules, part p = ds.filter (s.isAt p.name)
  /-- Among all modules each stands once, and nothing else does. -/
  once : ∀ d, (plan.modules.flatMap part).count d = if d ∈ ds then 1 else 0

/-- The structs in use: the defined ones as they are defined, then those that
are only announced. -/
def usedStructs (s : Scope) : List Decl :=
  (s.table.definitions.filter fun d => d.isRecord && decide (d.usr ∈ s.used.structs))
    ++ s.announced

/-- The definition is written as an alias. -/
inductive IsAlias (s : Scope) (d : Decl) : Prop where
  /-- A typedef in use that is no idiom, is not merged with its tag, and has a
  type that crosses as a value or behind a pointer. -/
  | typedef {type : TypeExpr} (kind : d.kind = .typedef type) (used : d.usr ∈ s.used.typedefs)
      (plain : Idiom.detect? d.name type = none) (separate : s.isMerged d.usr = false)
      (emittable : s.Crosses .value type ∨ s.Crosses .pointee type)
  /-- An enum in use that crosses. -/
  | enum {integerType : Option TypeExpr} {isClosed : Bool} {enumerators : List Decl}
      (kind : d.kind = .enum integerType isClosed enumerators) (used : d.usr ∈ s.used.enums)
      (handled : s.Crosses .value (.enum d.usr))

open Classical in
/-- The typedefs and enums that are written, in the order of their
definitions. -/
noncomputable def aliases (s : Scope) : List Decl :=
  s.table.definitions.filter fun d => decide (s.IsAlias d)

/-- Every declaration is placed exactly once. -/
structure PlacesOnce (s : Scope) (plan : Plan) : Prop where
  /-- No two modules have one name. -/
  distinct : (plan.modules.map ModulePlan.name).Nodup
  interfaces : s.Places plan (fun p => p.interfaces.map Container.decl)
    (s.table.definitions.filter Decl.isInterface)
  protocols : s.Places plan (fun p => p.protocols.map Container.decl)
    (s.table.definitions.filter Decl.isProtocol)
  structs : s.Places plan (fun p => p.structs.map StructPlan.decl) s.usedStructs
  /-- With a USR in use, the declaration that it leads to is placed, and no
  other of the USR. -/
  byUsr : ∀ usr ∈ s.used.structs, ∃ d, s.table.find usr = .ok d ∧ d ∈ s.usedStructs ∧
    (plan.modules.flatMap fun p => p.structs.map fun st => st.decl.usr).count usr = 1
  /-- The announced structs stand in the order of their USRs. -/
  ascending : (s.announced.map Decl.usr).Pairwise (· < ·)
  /-- A struct that is only announced has no layout. -/
  withoutLayout : ∀ p ∈ plan.modules, ∀ st ∈ p.structs,
    s.table.isDefined st.decl.usr = false → st.isRepresentable = false
  aliases : s.Places plan ModulePlan.aliases s.aliases

/-! ## §2. Lists spread over modules. -/

/-- What has its home as module is at its home only. -/
theorem isAt_eq {d : Decl} (h : s.moduleOf d = .ok (s.home d)) (name : String) :
    s.isAt name d = (s.home d == name) := by
  rw [isAt, h]

/-- The module of something is one. -/
theorem eq_of_isAt {d : Decl} {name name' : String} (h : s.isAt name d = true)
    (h' : s.isAt name' d = true) : name = name' := by
  unfold isAt at h h'
  cases hmodule : s.moduleOf d with
  | error e => simp [hmodule] at h
  | ok module =>
      simp only [hmodule, beq_iff_eq] at h h'
      exact h.symm.trans h'

/-- **A list without repetitions that is spread over modules stands there
once.** -/
theorem places_of_ordered (hm : s.Modules plan) (hnodup : ds.Nodup)
    (hhome : ∀ d ∈ ds, s.moduleOf d = .ok (s.home d) ∧ s.home d ∈ s.moduleNames)
    (hordered : ∀ p ∈ plan.modules, part p = ds.filter fun d => s.home d == p.name) :
    s.Places plan part ds := by
  have housed : ∀ d ∈ ds, ∃ p ∈ plan.modules, s.moduleOf d = .ok p.name := by
    intro d hd
    obtain ⟨hmodule, hname⟩ := hhome d hd
    obtain ⟨p, hp, hp'⟩ := hm.exists_of_mem hname
    exact ⟨p, hp, hp' ▸ hmodule⟩
  have ordered : ∀ p ∈ plan.modules, part p = ds.filter (s.isAt p.name) := by
    intro p hp
    rw [hordered p hp]
    exact List.filter_congr fun d hd => (isAt_eq (hhome d hd).1 p.name).symm
  refine ⟨housed, ordered, fun d => ?_⟩
  -- The parts have no member twice and share none.
  have hall : (plan.modules.flatMap part).Nodup := by
    rw [List.nodup_flatMap]
    refine ⟨fun p hp => ordered p hp ▸ hnodup.filter _, ?_⟩
    refine (List.pairwise_map.1 hm.nodup_names).imp_of_mem fun {p q} hp hq hne x hx hx' => ?_
    rw [ordered p hp] at hx
    rw [ordered q hq] at hx'
    exact hne (eq_of_isAt (List.mem_filter.1 hx).2 (List.mem_filter.1 hx').2)
  have hmem : d ∈ plan.modules.flatMap part ↔ d ∈ ds := by
    rw [List.mem_flatMap]
    constructor
    · rintro ⟨p, hp, hd⟩
      rw [ordered p hp] at hd
      exact (List.mem_filter.1 hd).1
    · intro hd
      obtain ⟨p, hp, hmodule⟩ := housed d hd
      refine ⟨p, hp, ?_⟩
      rw [ordered p hp]
      exact List.mem_filter.2 ⟨hd, by rw [isAt, hmodule]; exact beq_self_eq_true p.name⟩
  rw [hall.count]
  exact if_congr hmem rfl rfl

/-- A list that is spread over modules, seen through a function that tells its
members apart. -/
theorem Places.count_map {α : Type} [DecidableEq α] {f : Decl → α}
    (h : s.Places plan part ds) (hf : ∀ a ∈ ds, ∀ b ∈ ds, f a = f b → a = b) {d : Decl}
    (hd : d ∈ ds) : (plan.modules.flatMap fun p => (part p).map f).count (f d) = 1 := by
  have honly : ∀ x ∈ plan.modules.flatMap part, x ∈ ds := by
    intro x hx
    by_contra hnot
    have hcount := h.once x
    rw [if_neg hnot, List.count_eq_zero] at hcount
    exact hcount hx
  have hone := h.once d
  rw [if_pos hd] at hone
  rw [← List.map_flatMap, List.count, List.countP_map, ← hone, List.count]
  apply List.countP_congr
  intro x hx
  simp only [Function.comp_apply, beq_iff_eq]
  exact ⟨hf x (honly x hx) d hd, congrArg f⟩

/-! ## §3. Containers. -/

/-- The declarations of a module's containers, from what they are without
supertraits. -/
theorem map_decl_of_forget {cs : List Container} {l : List Decl} {f : Decl → Container}
    (hcs : cs.map Container.forget = l.map f) (hf : ∀ d, (f d).decl = d) :
    cs.map Container.decl = l := by
  have hdecls : (cs.map Container.forget).map Container.decl = cs.map Container.decl := by
    rw [List.map_map]
    rfl
  rw [← hdecls, hcs, List.map_map]
  exact (List.map_congr_left fun d _ => hf d).trans (List.map_id' l)

/-- What becomes something has its home as module, and the plan has it. -/
theorem home_of_item (homes : s.HasHomes) {d : Decl} (hd : d ∈ s.table.definitions)
    (hitem : (s.item? d).isSome) :
    s.moduleOf d = .ok (s.home d) ∧ s.home d ∈ s.moduleNames :=
  ⟨homes.items d hd hitem, home_mem_of_item hd hitem⟩

/-- Interfaces are placed once. -/
theorem places_interfaces (hs : s.WellFormed) (hm : s.Modules plan) (homes : s.HasHomes) :
    s.Places plan (fun p => p.interfaces.map Container.decl)
      (s.table.definitions.filter Decl.isInterface) := by
  refine places_of_ordered hm (hs.nodup_definitions.filter _) ?_ ?_
  · intro d hd
    obtain ⟨hdef, hi⟩ := List.mem_filter.1 hd
    exact home_of_item homes hdef (item?_of_isInterface hi)
  · intro p hp
    rw [map_decl_of_forget (forget_interfaces hs hm hp) fun _ => rfl, List.filter_filter]
    exact List.filter_congr fun d _ => Bool.and_comm _ _

/-- Protocols are placed once. -/
theorem places_protocols (hs : s.WellFormed) (hm : s.Modules plan) (homes : s.HasHomes) :
    s.Places plan (fun p => p.protocols.map Container.decl)
      (s.table.definitions.filter Decl.isProtocol) := by
  refine places_of_ordered hm (hs.nodup_definitions.filter _) ?_ ?_
  · intro d hd
    obtain ⟨hdef, hi⟩ := List.mem_filter.1 hd
    exact home_of_item homes hdef (item?_of_container (.inr hi))
  · intro p hp
    rw [map_decl_of_forget (forget_protocols hm hp) fun _ => rfl, List.filter_filter]
    exact List.filter_congr fun d _ => Bool.and_comm _ _

/-! ## §4. Structs. -/

/-- A record in use becomes a struct, and nothing else does. -/
theorem item?_struct_iff {d : Decl} :
    (∃ st, s.item? d = some (.struct st)) ↔
      (d.isRecord && decide (d.usr ∈ s.used.structs)) = true := by
  constructor
  · rintro ⟨st, hitem⟩
    obtain ⟨_, hused, _⟩ := item?_eq_struct hitem
    cases hk : d.kind with
    | record fields tag => simp [Decl.isRecord, hk, hused]
    | _ => grind [item?]
  · intro h
    obtain ⟨hrecord, hused⟩ := Bool.and_eq_true_iff.1 h
    cases hk : d.kind with
    | record fields tag => exact item?_record hk (of_decide_eq_true hused)
    | _ => simp [Decl.isRecord, hk] at hrecord

/-- **The structs of a module**, in their two rows. -/
theorem draft_structs (name : String) :
    (s.draft name).structs.map StructPlan.decl
      = s.usedStructs.filter fun d => s.home d == name := by
  show (((s.placements.filter (·.module == name)).map Placed.item).filterMap _).map _ = _
  rw [filterMap_items, List.map_append, List.map_filterMap, List.map_filterMap, usedStructs,
    List.filter_append, List.filter_filter]
  congr 1
  · rw [← List.filterMap_eq_filter]
    apply List.filterMap_congr
    intro d _
    by_cases hh : s.home d = name
    · by_cases hst : (d.isRecord && decide (d.usr ∈ s.used.structs)) = true
      · obtain ⟨st, hitem⟩ := item?_struct_iff.2 hst
        obtain ⟨hdecl, _⟩ := item?_eq_struct hitem
        simp [hh, hitem, hdecl, hst, Option.guard]
      · -- What is no struct is left out on both sides.
        have hnone : ∀ st, s.item? d ≠ some (.struct st) :=
          fun st hitem => hst (item?_struct_iff.1 ⟨st, hitem⟩)
        cases hitem : s.item? d with
        | none => simp [hst, Option.guard]
        | some item =>
            cases item with
            | struct st => exact absurd hitem (hnone st)
            | _ => simp [hst, Option.guard]
    · simp [hh, Option.guard]
  · rw [← List.filterMap_eq_filter]
    apply List.filterMap_congr
    intro d _
    by_cases hh : s.home d = name <;> simp [hh, Option.guard]

/-- A USR in use leads to a record, which is among the structs in use. -/
theorem mem_usedStructs_of_used (hs : s.WellFormed) {usr : Usr} (hused : usr ∈ s.used.structs) :
    ∃ d, s.table.find? usr = some d ∧ d ∈ s.usedStructs := by
  obtain ⟨hclosure, _⟩ := Table.isClosure_of_followContainers (fun _ => Iff.rfl) hs.used
  obtain ⟨_, d, fields, tag, found, hk, _⟩ := (hclosure.structs usr).1 hused
  have found? := Table.find_eq_ok_iff.1 found
  have husr : d.usr = usr := Table.usr_of_find? found?
  refine ⟨d, found?, List.mem_append.2 ?_⟩
  rcases Table.mem_of_find? found? with hd | ⟨_, hundefined⟩
  · exact .inl (List.mem_filter.2 ⟨hd, by simp [Decl.isRecord, hk, husr, hused]⟩)
  · refine .inr (List.mem_filterMap.2 ⟨usr, hused, ?_⟩)
    rw [stub?, if_neg (by simp [hundefined]), found?]

/-- An announced struct has a USR in use that is not defined. -/
theorem stub_of_announced {d : Decl} (hd : d ∈ s.announced) :
    d.usr ∈ s.used.structs ∧ s.table.isDefined d.usr = false ∧ s.table.find? d.usr = some d := by
  obtain ⟨usr, hused, hstub⟩ := List.mem_filterMap.1 hd
  unfold stub? at hstub
  split at hstub
  · cases hstub
  · next hundefined =>
    have husr : d.usr = usr := Table.usr_of_find? hstub
    rw [husr]
    exact ⟨hused, Bool.not_eq_true _ ▸ hundefined, hstub⟩

/-- A definition defines its USR. -/
theorem isDefined_of_mem (hs : s.WellFormed) {d : Decl} (hd : d ∈ s.table.definitions) :
    s.table.isDefined d.usr = true := by
  rw [Table.isDefined, hs.table.definition?_of_mem hd]
  rfl

/-- **The announced structs stand in the order of their USRs.** -/
theorem ascending_announced (hs : s.WellFormed) :
    (s.announced.map Decl.usr).Pairwise (· < ·) := by
  obtain ⟨_, hsorted⟩ := Table.isClosure_of_followContainers (fun _ => Iff.rfl) hs.used
  have husrs : ∀ {usr : Usr} {d : Decl}, s.stub? usr = some d → d.usr = usr := by
    intro usr d hstub
    unfold stub? at hstub
    split at hstub
    · cases hstub
    · exact Table.usr_of_find? hstub
  rw [announced, List.pairwise_map, List.pairwise_filterMap]
  refine hsorted.structs.imp fun {a b} hlt d hd d' hd' => ?_
  rw [husrs hd, husrs hd']
  exact hlt

/-- Structs in use are told apart by their USRs. -/
theorem usedStructs_inj (hs : s.WellFormed) :
    ∀ a ∈ s.usedStructs, ∀ b ∈ s.usedStructs, a.usr = b.usr → a = b := by
  have hfind : ∀ d ∈ s.usedStructs, s.table.find? d.usr = some d := by
    intro d hd
    rcases List.mem_append.1 hd with hd | hd
    · exact hs.table.find?_of_mem (List.mem_filter.1 hd).1
    · exact (stub_of_announced hd).2.2
  intro a ha b hb husr
  have hsame : some a = some b := by rw [← hfind a ha, ← hfind b hb, husr]
  exact Option.some.inj hsame

/-- No struct in use is listed twice. -/
theorem nodup_usedStructs (hs : s.WellFormed) : s.usedStructs.Nodup := by
  refine List.nodup_append.2 ⟨hs.nodup_definitions.filter _, ?_, ?_⟩
  · refine (List.pairwise_map.1 (ascending_announced hs)).imp ?_
    rintro a b hlt rfl
    exact String.lt_irrefl _ hlt
  · -- The rows are disjoint: one holds definitions, the other what has none.
    rintro a ha b hb rfl
    have hundefined := (stub_of_announced hb).2.1
    rw [isDefined_of_mem hs (List.mem_filter.1 ha).1] at hundefined
    cases hundefined

/-- Structs in use are placed once. -/
theorem places_structs (hs : s.WellFormed) (hm : s.Modules plan) (homes : s.HasHomes) :
    s.Places plan (fun p => p.structs.map StructPlan.decl) s.usedStructs := by
  refine places_of_ordered hm (nodup_usedStructs hs) ?_ ?_
  · intro d hd
    rcases List.mem_append.1 hd with hd | hd
    · obtain ⟨hdef, hst⟩ := List.mem_filter.1 hd
      obtain ⟨st, hitem⟩ := item?_struct_iff.2 hst
      exact home_of_item homes hdef (by simp [hitem])
    · exact ⟨homes.announced d hd, home_mem_of_announced hd⟩
  · intro p hp
    rw [(hm.finished p hp).structs, draft_structs]

/-! ## §5. Aliases. -/

/-- **A definition becomes an alias exactly if it is written as one.** -/
theorem item?_alias_iff {d : Decl} : s.item? d = some (.alias d) ↔ s.IsAlias d := by
  constructor
  · intro hitem
    cases hk : d.kind with
    | typedef type =>
        obtain ⟨used, plain, separate, emittable⟩ := (item?_typedef_iff hk).1 hitem
        exact .typedef hk used plain separate emittable
    | enum integerType isClosed enumerators =>
        obtain ⟨used, handled⟩ := (item?_enum_iff hk).1 hitem
        exact .enum hk used handled
    | _ => grind [item?]
  · intro h
    cases h with
    | typedef kind used plain separate emittable =>
        exact (item?_typedef_iff kind).2 ⟨used, plain, separate, emittable⟩
    | enum kind used handled => exact (item?_enum_iff kind).2 ⟨used, handled⟩

open Classical in
/-- **The aliases of a module**, in the order of their definitions. -/
theorem draft_aliases (name : String) :
    (s.draft name).aliases = s.aliases.filter fun d => s.home d == name := by
  show ((s.placements.filter (·.module == name)).map Placed.item).filterMap _ = _
  rw [filterMap_items_of_definitions fun _ => rfl, aliases, List.filter_filter,
    ← List.filterMap_eq_filter]
  apply List.filterMap_congr
  intro d _
  by_cases hh : s.home d = name
  · by_cases ha : s.IsAlias d
    · simp [hh, item?_alias_iff.2 ha, ha, Option.guard]
    · cases hitem : s.item? d with
      | none => simp [ha, Option.guard]
      | some item =>
          rcases item with _ | _ | _ | x
          · simp [ha, Option.guard]
          · simp [ha, Option.guard]
          · simp [ha, Option.guard]
          · have hx := item?_eq_alias hitem
            exact absurd (item?_alias_iff.1 (hx ▸ hitem)) ha
  · simp [hh, Option.guard]

open Classical in
/-- Aliases in use are placed once. -/
theorem places_aliases (hs : s.WellFormed) (hm : s.Modules plan) (homes : s.HasHomes) :
    s.Places plan ModulePlan.aliases s.aliases := by
  refine places_of_ordered hm (hs.nodup_definitions.filter _) ?_ ?_
  · intro d hd
    obtain ⟨hdef, ha⟩ := List.mem_filter.1 hd
    have hitem := item?_alias_iff.2 (of_decide_eq_true ha)
    exact home_of_item homes hdef (by simp [hitem])
  · intro p hp
    rw [(hm.finished p hp).aliases, draft_aliases]

/-! ## §6. The theorem. -/

/-- **Every plan places each declaration exactly once**, in the module that its
header leads to and in the order of the definitions. -/
theorem plan_placesOnce {unit : TranslationUnit} {rules : List ModuleRule}
    (hunit : ofUnit unit rules = .ok s) (hplan : s.plan = .ok plan) : s.PlacesOnce plan := by
  have hs := wellFormed_of_ofUnit hunit
  have hm := modules_of_plan hs hplan
  obtain ⟨homes, _⟩ := plan_eq_ok hs hplan
  have hstructs := places_structs hs hm homes
  constructor
  case distinct => exact hm.nodup_names
  case interfaces => exact places_interfaces hs hm homes
  case protocols => exact places_protocols hs hm homes
  case structs => exact hstructs
  case byUsr =>
    -- The first declaration of the USR is the one that is placed.
    intro usr hused
    obtain ⟨d, found, hd⟩ := mem_usedStructs_of_used hs hused
    have husr : d.usr = usr := Table.usr_of_find? found
    refine ⟨d, Table.find_eq_ok_iff.2 found, hd, ?_⟩
    have hcount := hstructs.count_map (f := Decl.usr) (usedStructs_inj hs) hd
    simpa only [List.map_map, Function.comp_def, husr] using hcount
  case ascending => exact ascending_announced hs
  case withoutLayout =>
    intro p hp st hst hundefined
    rw [(hm.finished p hp).structs, mem_draft_structs] at hst
    obtain ⟨_, ⟨hdef, _⟩ | ⟨_, hopen⟩⟩ := hst
    · rw [isDefined_of_mem hs hdef] at hundefined
      cases hundefined
    · exact hopen
  case aliases => exact places_aliases hs hm homes

end Scope

/-- The plan of the canvas places its declarations once. -/
theorem canvas_placesOnce :
    ∃ s plan, Scope.ofUnit canvasUnit uiRules = .ok s ∧ s.plan = .ok plan
      ∧ s.PlacesOnce plan := by
  obtain ⟨_, s, plan, hs, hp⟩ := canvasUnit_planned
  exact ⟨s, plan, hs, hp, Scope.plan_placesOnce hs hp⟩

end ObjcBindings
