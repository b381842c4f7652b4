/-
  ObjcBindings.Proofs.PlannedSupertraits
  ────────────────────────────────
  **THE HIERARCHY OF A PLAN.**

  The hierarchy has one node for each interface and protocol that is defined,
  and a USR leads to the node of its definition.  The last pass over a plan
  does not change it:

      nodeOf                — the node of a definition
      node?_eq_some_iff     — what a USR leads to
      supertraits_of_plan   — the finished modules give the same hierarchy
-/
import ObjcBindings.Proofs.FinishedModules
import ObjcBindings.Proofs.SupertraitClosure

namespace ObjcBindings

/-- The hierarchy of the interfaces and protocols of a plan. -/
def Plan.supertraits (plan : Plan) : Supertraits :=
  Supertraits.ofModules plan.modules

/-! ## §1. The hierarchy before and after the last pass. -/

namespace Supertraits

variable {nodes : Supertraits}

/-- The nodes of the first module come first. -/
theorem ofModules_cons (p : ModulePlan) (ps : List ModulePlan) :
    ofModules (p :: ps) = (p.interfaces ++ p.protocols).map (·.node p.name) ++ ofModules ps :=
  List.flatMap_cons

/-- Finishing modules keeps their nodes. -/
theorem ofModules_finishModules (drafts : List ModulePlan) :
    ∀ done : Implemented,
      ofModules (nodes.finishModules (drafts.map nodes.finishOwn) done) = ofModules drafts := by
  induction drafts with
  | nil => exact fun _ => rfl
  | cons d ds ih =>
      intro done
      -- Nodes do not depend on supertraits and implementations.
      have hnodes : (d.interfaces.map nodes.finishInterface
            ++ d.protocols.map nodes.finishProtocol).map (·.node d.name)
          = (d.interfaces ++ d.protocols).map (·.node d.name) := by
        rw [List.map_append, List.map_append, List.map_map, List.map_map]
        rfl
      rw [ofModules_cons, ← ih (nodes.finishCategories d.name d.categories done).2, ← hnodes]
      rfl

end Supertraits

namespace Scope

variable {s : Scope} {plan : Plan}

/-- **The last pass keeps the hierarchy.** -/
theorem supertraits_of_plan (hs : s.WellFormed) (h : s.plan = .ok plan) :
    plan.supertraits = s.supertraits := by
  obtain ⟨_, rfl⟩ := plan_eq_ok hs h
  exact Supertraits.ofModules_finishModules s.drafts _

/-! ## §2. Nodes of definitions. -/

/-- The node of an interface or protocol. -/
noncomputable def nodeOf (s : Scope) (d : Decl) : SupertraitNode :=
  (if d.isInterface then s.interfaceContainer d else s.protocolContainer d).node (s.home d)

/-- A node has the USR of its declaration. -/
theorem nodeOf_usr (d : Decl) : (s.nodeOf d).usr = d.usr := by
  unfold nodeOf
  split <;> rfl

theorem nodeOf_name (d : Decl) : (s.nodeOf d).name = d.name := by
  unfold nodeOf
  split <;> rfl

theorem nodeOf_module (d : Decl) : (s.nodeOf d).module = s.home d := by
  unfold nodeOf
  split <;> rfl

theorem nodeOf_kind (d : Decl) :
    (s.nodeOf d).kind = if d.isInterface then .interface else .protocol := by
  unfold nodeOf
  split <;> rfl

/-- A protocol is no interface. -/
theorem isInterface_eq_false {d : Decl} (h : d.isProtocol = true) : d.isInterface = false := by
  unfold Decl.isProtocol at h
  unfold Decl.isInterface
  split at h
  · next hk => rw [hk]
  · cases h

/-- **The nodes are those of the interfaces and protocols that are defined.** -/
theorem mem_supertraits_iff (hs : s.WellFormed) {n : SupertraitNode} :
    n ∈ s.supertraits ↔
      ∃ d ∈ s.table.definitions, (d.isInterface = true ∨ d.isProtocol = true) ∧
        n = s.nodeOf d := by
  rw [supertraits, Supertraits.ofModules, drafts_eq_map, List.mem_flatMap]
  constructor
  · -- A container of a draft stands for a definition at home in that module.
    rintro ⟨p, hp, hn⟩
    obtain ⟨name, _, rfl⟩ := List.mem_map.1 hp
    obtain ⟨c, hc, rfl⟩ := List.mem_map.1 hn
    rcases List.mem_append.1 hc with hc | hc
    · rw [draft_interfaces hs] at hc
      obtain ⟨d, hd, rfl⟩ := List.mem_map.1 hc
      obtain ⟨hdef, hcond⟩ := List.mem_filter.1 hd
      obtain ⟨hi, hhome⟩ := Bool.and_eq_true_iff.1 hcond
      refine ⟨d, hdef, .inl hi, ?_⟩
      rw [nodeOf, if_pos hi, beq_iff_eq.1 hhome]
      rfl
    · rw [draft_protocols] at hc
      obtain ⟨d, hd, rfl⟩ := List.mem_map.1 hc
      obtain ⟨hdef, hcond⟩ := List.mem_filter.1 hd
      obtain ⟨hi, hhome⟩ := Bool.and_eq_true_iff.1 hcond
      refine ⟨d, hdef, .inr hi, ?_⟩
      rw [nodeOf, if_neg (by simp [isInterface_eq_false hi]), beq_iff_eq.1 hhome]
      rfl
  · -- A definition has its container in the module that it is at home in.
    rintro ⟨d, hd, hkind, rfl⟩
    refine ⟨s.draft (s.home d),
      List.mem_map_of_mem (home_mem_of_item hd (item?_of_container hkind)), ?_⟩
    rcases hkind with hi | hi
    · refine List.mem_map.2 ⟨s.interfaceContainer d, List.mem_append_left _ ?_, ?_⟩
      · rw [draft_interfaces hs]
        exact List.mem_map_of_mem (List.mem_filter.2 ⟨hd, by simp [hi]⟩)
      · rw [nodeOf, if_pos hi]
        rfl
    · refine List.mem_map.2 ⟨s.protocolContainer d, List.mem_append_right _ ?_, ?_⟩
      · rw [draft_protocols]
        exact List.mem_map_of_mem (List.mem_filter.2 ⟨hd, by simp [hi]⟩)
      · rw [nodeOf, if_neg (by simp [isInterface_eq_false hi])]
        rfl

/-- Two nodes of one USR are one. -/
theorem eq_of_node_usr_eq (hs : s.WellFormed) {n m : SupertraitNode} (hn : n ∈ s.supertraits)
    (hm : m ∈ s.supertraits) (h : n.usr = m.usr) : n = m := by
  obtain ⟨d, hd, _, rfl⟩ := (mem_supertraits_iff hs).1 hn
  obtain ⟨e, he, _, rfl⟩ := (mem_supertraits_iff hs).1 hm
  rw [nodeOf_usr, nodeOf_usr] at h
  rw [hs.table.eq_of_usr_eq hd he h]

/-- **A USR leads to the node of its definition.** -/
theorem node?_eq_some_iff (hs : s.WellFormed) {usr : Usr} {n : SupertraitNode} :
    s.supertraits.node? usr = some n ↔ n ∈ s.supertraits ∧ n.usr = usr := by
  constructor
  · intro h
    exact ⟨List.mem_of_find?_eq_some h, by simpa using List.find?_some h⟩
  · rintro ⟨hn, rfl⟩
    cases hfind : s.supertraits.node? n.usr with
    | none =>
        have hno := List.find?_eq_none.1 hfind n hn
        simp at hno
    | some m =>
        have hm := List.mem_of_find?_eq_some hfind
        have husr : m.usr = n.usr := by simpa using List.find?_some hfind
        rw [eq_of_node_usr_eq hs hm hn husr]

/-- The node of an interface or protocol is found under its USR. -/
theorem node?_of_mem (hs : s.WellFormed) {d : Decl} (hd : d ∈ s.table.definitions)
    (hkind : d.isInterface = true ∨ d.isProtocol = true) :
    s.supertraits.node? d.usr = some (s.nodeOf d) :=
  (node?_eq_some_iff hs).2 ⟨(mem_supertraits_iff hs).2 ⟨d, hd, hkind, rfl⟩, nodeOf_usr d⟩

end Scope

end ObjcBindings
