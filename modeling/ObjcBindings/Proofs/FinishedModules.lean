/-
  ObjcBindings.Proofs.FinishedModules
  ────────────────────────────────
  **WHAT THE LAST PASS OVER A PLAN CHANGES.**

  The last pass gives every container its supertraits and every class what it
  implements.  It changes nothing else:

    • `Finishes` — how a module relates to its draft,
    • `Container.forget` — a container without what the last pass gave it,
    • `modules_of_plan` — the modules of a plan are its drafts, finished.
-/
import ObjcBindings.Proofs.DraftModules

namespace ObjcBindings

/-! ## §1. Containers without supertraits. -/

/-- The container without its supertraits and implementations. -/
def Container.forget (c : Container) : Container :=
  { c with bases := [], impls := [] }

/-- What the last pass adds leaves the declaration of a container. -/
theorem Container.decl_eq_of_forget {c c' : Container} (h : c.forget = c'.forget) :
    c.decl = c'.decl := by
  show c.forget.decl = c'.forget.decl
  rw [h]

namespace Supertraits

variable (nodes : Supertraits)

/-- The last pass over categories only adds what they implement. -/
theorem forget_finishCategories (module : String) (cs : List Container) :
    ∀ done, (nodes.finishCategories module cs done).1.map Container.forget
      = cs.map Container.forget := by
  induction cs with
  | nil => exact fun _ => rfl
  | cons c cs ih =>
      intro done
      show c.forget :: (nodes.finishCategories module cs _).1.map Container.forget = _
      rw [ih]
      rfl

/-- What a category could add depends on its class and protocols only. -/
theorem categoryTraits_eq_of_forget {c c' : Container} (h : c.forget = c'.forget)
    (module : String) : nodes.categoryTraits module c = nodes.categoryTraits module c' := by
  show nodes.categoryTraits module c.forget = nodes.categoryTraits module c'.forget
  rw [h]

/-- A finished category differs from its draft in supertraits and
implementations only, and implements only what it could. -/
theorem mem_finishCategories {module : String} {c : Container} {cs : List Container} :
    ∀ {done : Implemented}, c ∈ (nodes.finishCategories module cs done).1 →
      ∃ d ∈ cs, ∃ done', c = (nodes.finishCategory module d done').1 := by
  induction cs with
  | nil =>
      intro done h
      cases h
  | cons d cs ih =>
      intro done h
      rcases List.mem_cons.1 h with rfl | h
      · exact ⟨d, List.mem_cons_self, done, rfl⟩
      · obtain ⟨x, hx, done', hc⟩ := ih h
        exact ⟨x, List.mem_cons_of_mem d hx, done', hc⟩

/-! ## §2. Finished modules. -/

/-- The module is the draft with its supertraits. -/
structure Finishes (draft p : ModulePlan) : Prop where
  name : p.name = draft.name
  structs : p.structs = draft.structs
  aliases : p.aliases = draft.aliases
  interfaces : p.interfaces = draft.interfaces.map nodes.finishInterface
  protocols : p.protocols = draft.protocols.map nodes.finishProtocol
  categories : ∃ done,
    p.categories = (nodes.finishCategories draft.name draft.categories done).1

variable {nodes}

/-- Finishing a module changes only what its interfaces implement. -/
theorem Finishes.forget_interfaces {draft p : ModulePlan} (h : nodes.Finishes draft p) :
    p.interfaces.map Container.forget = draft.interfaces.map Container.forget := by
  rw [h.interfaces, List.map_map]
  rfl

/-- Of its protocols it changes only the supertraits. -/
theorem Finishes.forget_protocols {draft p : ModulePlan} (h : nodes.Finishes draft p) :
    p.protocols.map Container.forget = draft.protocols.map Container.forget := by
  rw [h.protocols, List.map_map]
  rfl

/-- Of its categories it changes only what they implement. -/
theorem Finishes.forget_categories {draft p : ModulePlan} (h : nodes.Finishes draft p) :
    p.categories.map Container.forget = draft.categories.map Container.forget := by
  obtain ⟨done, hc⟩ := h.categories
  rw [hc, forget_finishCategories]

/-- A step of the last pass finishes one module. -/
theorem finishes_step (draft : ModulePlan) (done : Implemented) :
    nodes.Finishes draft
      { nodes.finishOwn draft with
        categories := (nodes.finishCategories draft.name draft.categories done).1 } :=
  ⟨rfl, rfl, rfl, rfl, rfl, done, rfl⟩

/-- Every finished module comes from a draft. -/
theorem finishes_of_mem {p : ModulePlan} (drafts : List ModulePlan) :
    ∀ {done : Implemented}, p ∈ nodes.finishModules (drafts.map nodes.finishOwn) done →
      ∃ draft ∈ drafts, nodes.Finishes draft p := by
  induction drafts with
  | nil =>
      intro done h
      cases h
  | cons d ds ih =>
      intro done h
      rcases List.mem_cons.1 h with rfl | h
      · exact ⟨d, List.mem_cons_self, finishes_step d done⟩
      · obtain ⟨draft, hdraft, hf⟩ := ih h
        exact ⟨draft, List.mem_cons_of_mem d hdraft, hf⟩

/-- Finishing keeps the names of the modules. -/
theorem map_name_finishModules (drafts : List ModulePlan) :
    ∀ done : Implemented, (nodes.finishModules (drafts.map nodes.finishOwn) done).map
      ModulePlan.name = drafts.map ModulePlan.name := by
  induction drafts with
  | nil => exact fun _ => rfl
  | cons d ds ih =>
      intro done
      show d.name :: (nodes.finishModules (ds.map nodes.finishOwn) _).map ModulePlan.name = _
      rw [ih]
      rfl

end Supertraits

/-! ## §3. The modules of a plan. -/

namespace Scope

variable {s : Scope} {plan : Plan}

/-- The interfaces and protocols of a plan with what is above them. -/
noncomputable def supertraits (s : Scope) : Supertraits :=
  Supertraits.ofModules s.drafts

/-- **The modules of a plan are its drafts, finished.** -/
structure Modules (s : Scope) (plan : Plan) : Prop where
  names : plan.modules.map ModulePlan.name = s.moduleNames
  finished : ∀ p ∈ plan.modules, s.supertraits.Finishes (s.draft p.name) p

/-- **The modules of a plan are the finished drafts.** -/
theorem modules_of_plan (hs : s.WellFormed) (h : s.plan = .ok plan) : s.Modules plan := by
  obtain ⟨_, rfl⟩ := plan_eq_ok hs h
  constructor
  · show (s.supertraits.finishModules (s.drafts.map s.supertraits.finishOwn) _).map _ = _
    rw [Supertraits.map_name_finishModules, drafts_eq_map, List.map_map]
    exact List.map_id' s.moduleNames
  · intro p hp
    obtain ⟨draft, hdraft, hf⟩ := Supertraits.finishes_of_mem s.drafts hp
    obtain ⟨name, _, rfl⟩ := List.mem_map.1 hdraft
    have hname : p.name = name := hf.name
    rw [hname]
    exact hf

/-- A module of the plan has a draft. -/
theorem Modules.name_mem (h : s.Modules plan) {p : ModulePlan} (hp : p ∈ plan.modules) :
    p.name ∈ s.moduleNames :=
  h.names ▸ List.mem_map_of_mem hp

/-- A draft has its module in the plan. -/
theorem Modules.exists_of_mem (h : s.Modules plan) {name : String} (hn : name ∈ s.moduleNames) :
    ∃ p ∈ plan.modules, p.name = name :=
  List.mem_map.1 (h.names ▸ hn)

/-- No two modules of a plan have one name. -/
theorem Modules.nodup_names (h : s.Modules plan) : (plan.modules.map ModulePlan.name).Nodup := by
  rw [h.names]
  exact s.nodup_moduleNames

/-- The interfaces of a module, but for what the last pass gave them. -/
theorem forget_interfaces (hs : s.WellFormed) (hm : s.Modules plan) {p : ModulePlan}
    (hp : p ∈ plan.modules) :
    p.interfaces.map Container.forget
      = (s.table.definitions.filter fun d => d.isInterface && s.home d == p.name).map
          s.interfaceContainer := by
  rw [(hm.finished p hp).forget_interfaces, draft_interfaces hs, List.map_map]
  rfl

/-- The protocols of a module, but for what the last pass gave them. -/
theorem forget_protocols (hm : s.Modules plan) {p : ModulePlan} (hp : p ∈ plan.modules) :
    p.protocols.map Container.forget
      = (s.table.definitions.filter fun d => d.isProtocol && s.home d == p.name).map
          s.protocolContainer := by
  rw [(hm.finished p hp).forget_protocols, draft_protocols, List.map_map]
  rfl

/-- The categories of a module, but for what the last pass gave them. -/
theorem forget_categories (hs : s.WellFormed) (hm : s.Modules plan) {p : ModulePlan}
    (hp : p ∈ plan.modules) :
    p.categories.map Container.forget
      = (s.visited p.name).dedup.map (s.categoryContainer p.name) := by
  rw [(hm.finished p hp).forget_categories, draft_categories hs, List.map_map]
  rfl

/-- An interface of a module comes from a definition that is at home there. -/
theorem forget_of_interface (hs : s.WellFormed) (hm : s.Modules plan) {p : ModulePlan}
    (hp : p ∈ plan.modules) {c : Container} (hc : c ∈ p.interfaces) :
    ∃ d ∈ s.table.definitions, d.isInterface = true ∧ s.home d = p.name
      ∧ c.forget = s.interfaceContainer d := by
  have hforget : c.forget ∈ p.interfaces.map Container.forget := List.mem_map_of_mem hc
  rw [forget_interfaces hs hm hp] at hforget
  obtain ⟨d, hd, he⟩ := List.mem_map.1 hforget
  obtain ⟨hdef, hcond⟩ := List.mem_filter.1 hd
  obtain ⟨hi, hhome⟩ := Bool.and_eq_true_iff.1 hcond
  exact ⟨d, hdef, hi, beq_iff_eq.1 hhome, he.symm⟩

/-- A protocol of a module comes from a definition. -/
theorem forget_of_protocol (hm : s.Modules plan) {p : ModulePlan} (hp : p ∈ plan.modules)
    {c : Container} (hc : c ∈ p.protocols) :
    ∃ d ∈ s.table.definitions, d.isProtocol = true ∧ c.forget = s.protocolContainer d := by
  have hforget : c.forget ∈ p.protocols.map Container.forget := List.mem_map_of_mem hc
  rw [forget_protocols hm hp] at hforget
  obtain ⟨d, hd, he⟩ := List.mem_map.1 hforget
  obtain ⟨hdef, hcond⟩ := List.mem_filter.1 hd
  exact ⟨d, hdef, (Bool.and_eq_true_iff.1 hcond).1, he.symm⟩

/-- A category container of a module stands for a defined class. -/
theorem forget_of_category (hs : s.WellFormed) (hm : s.Modules plan) {p : ModulePlan}
    (hp : p ∈ plan.modules) {c : Container} (hc : c ∈ p.categories) :
    ∃ cls ∈ s.table.definitions, cls.isInterface = true
      ∧ c.forget = s.categoryContainer p.name cls := by
  have hforget : c.forget ∈ p.categories.map Container.forget := List.mem_map_of_mem hc
  rw [forget_categories hs hm hp] at hforget
  obtain ⟨cls, hcls, he⟩ := List.mem_map.1 hforget
  -- A class is visited because some category extends it.
  obtain ⟨k, _, hk⟩ := List.mem_filterMap.1 (List.mem_dedup.1 hcls)
  obtain ⟨hdef, hi⟩ := defined_of_extended? hs (Option.filter_eq_some_iff.1 hk).1
  exact ⟨cls, hdef, hi, he.symm⟩

/-- A unit of which the whole plan is made has a scope and a plan. -/
theorem exists_plan_of_isOk {unit : TranslationUnit} {rules : List ModuleRule}
    (h : ((ofUnit unit rules).bind Scope.plan).isOk = true) :
    ∃ s plan, ofUnit unit rules = .ok s ∧ s.plan = .ok plan := by
  obtain ⟨plan, hbind⟩ := exists_eq_ok_of_isOk h
  obtain ⟨s, hs, hplan⟩ := bind_eq_ok_iff.1 hbind
  exact ⟨s, plan, hs, hplan⟩

end Scope

/-! ## §4. Rules of small units. -/

/-- Every header belongs to the module `ui`. -/
def uiRules : List ModuleRule := [⟨.start, .fixed "ui"⟩]

end ObjcBindings
