/-
  ObjcBindings.Proofs.ClosedOutput
  ────────────────────────────────
  **WHAT THE BINDINGS NAME, THE BINDINGS DECLARE.**

  Four walks have to agree: the search for declarations in use, the test of
  what crosses, the plan, and the spelling of types.  If the forward
  declarations of a unit only announce, they do:

    • every type that a module writes is spelled in both layers, and each name
      in it is declared by exactly the module that it is written with,
    • every trait above a container, or implemented through it, is a trait of
      a container of the trait's module.
-/
import ObjcBindings.Proofs.PlannedSupertraits
import ObjcBindings.Proofs.WrittenTypes

namespace ObjcBindings

/-! ## §1. What has to hold. -/

/-- The trait is one of a container of its module. -/
def Plan.HasTrait (plan : Plan) (t : TraitRef) : Prop :=
  ∃ p ∈ plan.modules, p.name = t.module ∧
    ∃ c ∈ p.containers, t.name = c.rawTraitName ∨ t.name = c.traitName

/-- All that the modules name is declared where it is looked for. -/
structure Plan.Closed (plan : Plan) (s : Scope) : Prop where
  /-- Names in raw spellings. -/
  raw : ∀ p ∈ plan.modules, ∀ t, p.Writes t →
    ∃ r, s.rawType [] t = .ok r ∧ ∀ x ∈ r.names, plan.Resolves s x.1 x.2
  /-- Names in safe spellings. -/
  safe : ∀ p ∈ plan.modules, ∀ t, p.Writes t →
    ∃ form, s.safeForm [] t = .ok form ∧ ∀ x ∈ form.type.names, plan.Resolves s x.1 x.2
  /-- Supertraits and implementations. -/
  traits : ∀ p ∈ plan.modules, ∀ c ∈ p.containers, ∀ t ∈ c.bases ++ c.impls, plan.HasTrait t

namespace Scope

variable {s : Scope} {plan : Plan} {p : ModulePlan} {t : TraitRef}

/-! ## §2. Traits. -/

/-- The traits of the hierarchy are traits of containers. -/
theorem hasTrait_of_node (hs : s.WellFormed) (hplan : s.plan = .ok plan) {n : SupertraitNode}
    (hn : n ∈ s.supertraits) (ht : n.Has t) : plan.HasTrait t := by
  -- The last pass keeps the hierarchy, so its nodes are finished containers.
  rw [← supertraits_of_plan hs hplan] at hn
  obtain ⟨p, hp, hn⟩ := List.mem_flatMap.1 hn
  obtain ⟨c, hc, rfl⟩ := List.mem_map.1 hn
  have hcontainer : c ∈ p.containers := List.mem_append_left _ hc
  rcases ht with rfl | rfl
  · exact ⟨p, hp, rfl, c, hcontainer, .inl rfl⟩
  · exact ⟨p, hp, rfl, c, hcontainer, .inr rfl⟩

theorem hasTrait_of_safeTrait? (hs : s.WellFormed) (hplan : s.plan = .ok plan)
    {ds : List Decl} (ht : t ∈ ds.filterMap fun d => s.supertraits.safeTrait? d.usr) :
    plan.HasTrait t := by
  obtain ⟨d, _, hd⟩ := List.mem_filterMap.1 ht
  obtain ⟨n, hn, rfl⟩ := Option.map_eq_some_iff.1 hd
  exact hasTrait_of_node hs hplan (Supertraits.mem_of_node? hn) (.inr rfl)

theorem hasTrait_of_closure (hs : s.WellFormed) (hplan : s.plan = .ok plan) {todo : List Usr}
    {listed : List TraitRef} (hlisted : ∀ t ∈ listed, plan.HasTrait t)
    (ht : t ∈ s.supertraits.closure todo listed) : plan.HasTrait t := by
  rcases (Supertraits.walks_closure todo listed).mem_or ht with hl | ⟨_, _, n, hn, hhas⟩
  · exact hlisted t hl
  · exact hasTrait_of_node hs hplan hn.mem hhas

theorem hasTrait_of_interface (hs : s.WellFormed) (hplan : s.plan = .ok plan)
    (hp : p ∈ plan.modules) {c : Container} (hc : c ∈ p.interfaces)
    (ht : t ∈ c.bases ++ c.impls) : plan.HasTrait t := by
  rw [((modules_of_plan hs hplan).finished p hp).interfaces] at hc
  obtain ⟨d, _, rfl⟩ := List.mem_map.1 hc
  rcases List.mem_append.1 ht with ht | ht
  · exact hasTrait_of_safeTrait? hs hplan ht
  · exact hasTrait_of_closure hs hplan (by simp) ht

theorem hasTrait_of_protocol (hs : s.WellFormed) (hplan : s.plan = .ok plan)
    (hp : p ∈ plan.modules) {c : Container} (hc : c ∈ p.protocols)
    (ht : t ∈ c.bases ++ c.impls) : plan.HasTrait t := by
  rw [((modules_of_plan hs hplan).finished p hp).protocols, draft_protocols] at hc
  obtain ⟨x, hx, rfl⟩ := List.mem_map.1 hc
  obtain ⟨d, _, rfl⟩ := List.mem_map.1 hx
  -- Nothing implements a protocol, so only its supertraits count.
  rcases List.mem_append.1 ht with ht | ht
  · exact hasTrait_of_safeTrait? hs hplan ht
  · cases ht

theorem hasTrait_of_category (hs : s.WellFormed) (hplan : s.plan = .ok plan)
    (hp : p ∈ plan.modules) {c : Container} (hc : c ∈ p.categories)
    (ht : t ∈ c.bases ++ c.impls) : plan.HasTrait t := by
  have hm := modules_of_plan hs hplan
  have hcontainer : c ∈ p.containers := List.mem_append_right _ hc
  obtain ⟨done, hcategories⟩ := (hm.finished p hp).categories
  rw [hcategories] at hc
  obtain ⟨x, hx, done', rfl⟩ := s.supertraits.mem_finishCategories hc
  rw [draft_categories hs] at hx
  obtain ⟨cls, hcls, rfl⟩ := List.mem_map.1 hx
  rcases List.mem_append.1 ht with ht | ht
  · rcases List.mem_cons.1 ht with rfl | ht
    · -- The class has its container in its own module.
      obtain ⟨k, _, hk⟩ := List.mem_filterMap.1 (List.mem_dedup.1 hcls)
      obtain ⟨hd, hi⟩ := defined_of_extended? hs (Option.filter_eq_some_iff.1 hk).1
      obtain ⟨q, hq, hname, owner, howner, rfl, hkind⟩ := mem_interfaces_of_defined hs hm hd hi
      have hcontainers : owner ∈ q.containers :=
        List.mem_append_left _ (List.mem_append_left _ howner)
      refine ⟨q, hq, hname, owner, hcontainers, .inr ?_⟩
      rw [Container.traitName, hkind]
      rfl
    · exact hasTrait_of_safeTrait? hs hplan ht
  · -- Of what the category could add, it adds a part.
    have hoffered := ((claimTraits_spec _ _ done').2.1 t).1 ht
    refine hasTrait_of_closure hs hplan ?_ hoffered.1
    intro x hx
    rcases List.mem_cons.1 hx with rfl | hx
    · exact ⟨p, hp, rfl, _, hcontainer, .inl rfl⟩
    · rw [List.mem_singleton.1 hx]
      exact ⟨p, hp, rfl, _, hcontainer, .inr rfl⟩

/-- **Every trait that a container mentions is a trait of a container.** -/
theorem hasTrait_of_container (hs : s.WellFormed) (hplan : s.plan = .ok plan)
    (hp : p ∈ plan.modules) {c : Container} (hc : c ∈ p.containers)
    (ht : t ∈ c.bases ++ c.impls) : plan.HasTrait t := by
  rcases List.mem_append.1 hc with hc | hc
  · rcases List.mem_append.1 hc with hc | hc
    · exact hasTrait_of_interface hs hplan hp hc ht
    · exact hasTrait_of_protocol hs hplan hp hc ht
  · exact hasTrait_of_category hs hplan hp hc ht

/-! ## §3. The theorem. -/

/-- **The output is closed**: whatever the modules name is declared, in the
module that the name leads to and in no other. -/
theorem plan_closed {unit : TranslationUnit} {rules : List ModuleRule}
    (hbare : unit.HasBareForwards) (hunit : Scope.ofUnit unit rules = .ok s)
    (hplan : s.plan = .ok plan) : plan.Closed s := by
  have hs := wellFormed_of_ofUnit hunit
  have hb := hasBareStubs_of_ofUnit hunit hbare
  have hm := modules_of_plan hs hplan
  constructor
  case raw =>
    intro p hp t ht
    obtain ⟨⟨use, hcross⟩, hcovers⟩ := crosses_of_writes hs hm hp ht
    obtain ⟨r, hr, hnames⟩ := rawType_names hs hb hcross (fresh_nil t) hcovers
    exact ⟨r, hr, fun x hx => resolves_of_placeable hs hplan (hnames x hx)⟩
  case safe =>
    intro p hp t ht
    obtain ⟨⟨use, hcross⟩, hcovers⟩ := crosses_of_writes hs hm hp ht
    obtain ⟨form, hform, hnames⟩ := safeForm_names hs hb hcross (fresh_nil t) hcovers
    exact ⟨form, hform, fun x hx => resolves_of_placeable hs hplan (hnames x hx)⟩
  case traits =>
    intro p hp c hc t ht
    exact hasTrait_of_container hs hplan hp hc ht

end Scope

/-- The bindings of a unit with types of every kind are closed. -/
theorem canvas_closed :
    canvasUnit.HasBareForwards ∧ ∃ s plan, Scope.ofUnit canvasUnit uiRules = .ok s
      ∧ s.plan = .ok plan ∧ plan.Closed s := by
  obtain ⟨hbare, s, plan, hs, hp⟩ := canvasUnit_planned
  exact ⟨hbare, s, plan, hs, hp, Scope.plan_closed hbare hs hp⟩

end ObjcBindings
