/-
  ObjcBindings.Proofs.DeclaredHierarchy
  ────────────────────────────────
  **THE HIERARCHY OF A PLAN IS THE ONE THAT IS DECLARED.**

  What stands above an interface or protocol is said by declarations alone: by
  its superclass, by the protocols that it names, and by those that categories
  of its own module name.  A plan keeps a record of this for itself, and the
  closure of supertraits reads only that record:

      IsUnder          — one declaration stands directly under another
      IsNodeOf         — a node records what its declaration says
      CategoryAdopts   — the categories of a class in a module name a protocol

  Main results:
    • `isNodeOf_nodeOf` — every node is that of its declaration,
    • `mem_above_iff` — it is under the nodes of what the declaration is under,
    • `reaches_iff` — and what is reached from it is what is declared above.
-/
import ObjcBindings.Proofs.PlannedSupertraits
import Mathlib.Logic.Relation

namespace ObjcBindings

/-! ## §1. What is declared. -/

/-- Interfaces and protocols have traits of their own. -/
def Decl.HasTraits (d : Decl) : Prop := d.isInterface = true ∨ d.isProtocol = true

/-- The kind of an interface's or protocol's traits. -/
def Decl.traitKind (d : Decl) : ContainerKind :=
  if d.isInterface then .interface else .protocol

namespace Scope

/-- `d` names the protocol whose definition is `e`. -/
def Adopts (s : Scope) (d e : Decl) : Prop :=
  e ∈ s.table.definitions ∧ e.HasTraits ∧
    ∃ name ∈ d.protocols, ∃ p, s.table.protocolNamed? name = some p ∧ e.usr = p.usr

/-- The category `k` names the class whose definition is `cls`. -/
def Extends (s : Scope) (k cls : Decl) : Prop :=
  cls ∈ s.table.definitions ∧ cls.isInterface = true ∧
    ∃ className children protocols named, k.kind = .category className children protocols ∧
      s.table.interfaceNamed? className = some named ∧ cls.usr = named.usr

/-- `k` is a category of the class `cls`, and its module is `module`. -/
structure IsCategoryOf (s : Scope) (k cls : Decl) (module : String) : Prop where
  defined : k ∈ s.table.definitions
  target : s.Extends k cls
  housed : s.moduleOf k = .ok module

/-- A category of the class in the module names the protocol whose definition is
`e`. -/
def CategoryAdopts (s : Scope) (module : String) (cls e : Decl) : Prop :=
  ∃ k, s.IsCategoryOf k cls module ∧ s.Adopts k e

/-- The interface or protocol `d` stands directly under `e`. -/
inductive IsUnder (s : Scope) (d e : Decl) : Prop where
  /-- `e` is the defined superclass of the interface. -/
  | superclass {children : List Decl} {protocols typeParams : List String} {usr : Usr}
      (kind : d.kind = .interface children protocols (some usr) typeParams)
      (defined : e ∈ s.table.definitions) (named : e.usr = usr)
      (interface : e.isInterface = true)
  /-- It adopts the protocol. -/
  | protocol (adopts : s.Adopts d e)
  /-- A category of its own module adopts the protocol. -/
  | category {module : String} (housed : s.moduleOf d = .ok module)
      (adopts : s.CategoryAdopts module d e)

/-- `e` is `d` or stands somewhere above it. -/
def IsBelow (s : Scope) (d e : Decl) : Prop := Relation.ReflTransGen s.IsUnder d e

/-- A module other than that of the class has categories of it. -/
def IsExtendedIn (s : Scope) (cls : Decl) (module : String) : Prop :=
  module ≠ s.home cls ∧ ∃ k, s.IsCategoryOf k cls module

/-- The raw trait of an interface or protocol. -/
def rawTraitOf (s : Scope) (d : Decl) : TraitRef := .raw (s.home d) d.name d.traitKind

/-- The safe trait of an interface or protocol. -/
def safeTraitOf (s : Scope) (d : Decl) : TraitRef := .safe (s.home d) d.name d.traitKind

/-- A trait of `d` or of what stands above it. -/
def Inherits (s : Scope) (d : Decl) (t : TraitRef) : Prop :=
  ∃ e, s.IsBelow d e ∧ (t = s.rawTraitOf e ∨ t = s.safeTraitOf e)

/-- The node records what its declaration says. -/
structure IsNodeOf (s : Scope) (n : SupertraitNode) (d : Decl) : Prop where
  usr : n.usr = d.usr
  module : n.module = s.home d
  name : n.name = d.name
  kind : n.kind = d.traitKind
  /-- The superclass, if it is defined. -/
  superclass : n.superclass = (s.above? d).map Decl.usr
  /-- The first of each USR among the protocols that the declaration and the
  categories of its own module name. -/
  protocols : n.protocols
    = (firstOfUsr ((d :: s.categoriesOf (s.home d) d).flatMap s.adopted)).map Decl.usr

variable {s : Scope} {plan : Plan} {d e cls : Decl} {module : String}

/-! ## §2. Protocols and categories. -/

/-- The definitions among what a declaration names are those that it adopts. -/
theorem mem_adopted_iff (hs : s.WellFormed) :
    e ∈ s.adopted d ↔ e ∈ s.table.definitions ∧
      ∃ name ∈ d.protocols, ∃ p, s.table.protocolNamed? name = some p ∧ e.usr = p.usr := by
  rw [adopted, List.mem_filterMap]
  constructor
  · rintro ⟨name, hname, hdef⟩
    obtain ⟨p, hp, he⟩ := Option.bind_eq_some_iff.1 hdef
    obtain ⟨hmem, husr⟩ := hs.table.definition?_eq_some_iff.1 he
    exact ⟨hmem, name, hname, p, hp, husr⟩
  · rintro ⟨hmem, name, hname, p, hp, husr⟩
    refine ⟨name, hname, Option.bind_eq_some_iff.2 ⟨p, hp, ?_⟩⟩
    exact hs.table.definition?_eq_some_iff.2 ⟨hmem, husr⟩

/-- What a declaration adopts, as a plan gathers it. -/
theorem adopts_iff (hs : s.WellFormed) (he : e.HasTraits) : s.Adopts d e ↔ e ∈ s.adopted d := by
  rw [mem_adopted_iff hs, Adopts]
  exact and_congr_right fun _ => and_iff_right he

/-- The class that a plan gives a category is the one that it names. -/
theorem extended?_eq_some_iff (hs : s.WellFormed) {k : Decl} :
    s.extended? k = some cls ↔ s.Extends k cls := by
  unfold extended? Extends
  constructor
  · intro h
    split at h
    · next className children protocols hk =>
      obtain ⟨named, hnamed, hcls⟩ := Option.bind_eq_some_iff.1 h
      obtain ⟨hdef, husr, hi⟩ := (definedInterface?_eq_some_iff hs).1 hcls
      exact ⟨hdef, hi, className, children, protocols, named, hk, hnamed, husr⟩
    · cases h
  · rintro ⟨hdef, hi, className, children, protocols, named, hk, hnamed, husr⟩
    rw [hk]
    exact Option.bind_eq_some_iff.2
      ⟨named, hnamed, (definedInterface?_eq_some_iff hs).2 ⟨hdef, husr, hi⟩⟩

/-- The categories of a class in a module are those that the plan merges. -/
theorem mem_categoriesOf_iff (hs : s.WellFormed) (homes : s.HasHomes) {k : Decl} :
    k ∈ s.categoriesOf module cls ↔ s.IsCategoryOf k cls module := by
  rw [categoriesOf, List.mem_filter, Bool.and_eq_true, decide_eq_true_eq, beq_iff_eq]
  constructor
  · rintro ⟨hdef, hext, hhome⟩
    have hmodule := homes.categories k hdef (by rw [hext]; rfl)
    exact ⟨hdef, (extended?_eq_some_iff hs).1 hext, hhome ▸ hmodule⟩
  · rintro ⟨hdef, hext, hmodule⟩
    exact ⟨hdef, (extended?_eq_some_iff hs).2 hext, home_of_moduleOf hmodule⟩

/-- What categories of a class adopt, as a plan gathers it. -/
theorem categoryAdopts_iff (hs : s.WellFormed) (homes : s.HasHomes) (he : e.HasTraits) :
    s.CategoryAdopts module cls e ↔ e ∈ (s.categoriesOf module cls).flatMap s.adopted := by
  rw [List.mem_flatMap]
  refine exists_congr fun k => ?_
  rw [mem_categoriesOf_iff hs homes, adopts_iff hs he]

/-- Of definitions, gathering the first of each USR keeps all. -/
theorem mem_firstOfUsr_iff (hs : s.WellFormed) {ds : List Decl}
    (hds : ∀ x ∈ ds, x ∈ s.table.definitions) : e ∈ firstOfUsr ds ↔ e ∈ ds := by
  refine ⟨mem_of_mem_firstOfUsr, fun he => ?_⟩
  obtain ⟨x, hx, husr⟩ := exists_mem_firstOfUsr he
  rwa [← hs.table.eq_of_usr_eq (hds x (mem_of_mem_firstOfUsr hx)) (hds e he) husr]

/-- Gathering keeps the USRs of definitions. -/
theorem mem_map_usr_firstOfUsr (hs : s.WellFormed) {ds : List Decl}
    (hds : ∀ x ∈ ds, x ∈ s.table.definitions) (he : e ∈ s.table.definitions) :
    e.usr ∈ (firstOfUsr ds).map Decl.usr ↔ e ∈ ds := by
  rw [List.mem_map]
  constructor
  · rintro ⟨x, hx, husr⟩
    have hmem := mem_of_mem_firstOfUsr hx
    rwa [← hs.table.eq_of_usr_eq (hds x hmem) he husr]
  · exact fun h => ⟨e, (mem_firstOfUsr_iff hs hds).2 h, rfl⟩

/-- Protocols that are gathered from declarations are definitions. -/
theorem defined_of_mem_flatMap (hs : s.WellFormed) {ks : List Decl}
    (he : e ∈ ks.flatMap s.adopted) : e ∈ s.table.definitions := by
  obtain ⟨k, _, hk⟩ := List.mem_flatMap.1 he
  exact ((mem_adopted_iff hs).1 hk).1

/-! ## §3. Nodes. -/

/-- A protocol has no superclass and no categories. -/
theorem above?_of_isProtocol (hd : d.isProtocol = true) : s.above? d = none := by
  cases hk : d.kind <;> simp_all [Decl.isProtocol, above?]

/-- No category extends a protocol. -/
theorem categoriesOf_of_isProtocol (hs : s.WellFormed) (hd : d.isProtocol = true) :
    s.categoriesOf module d = [] := by
  rw [categoriesOf, List.filter_eq_nil_iff]
  intro k _ hk
  have hext : s.extended? k = some d := of_decide_eq_true (Bool.and_eq_true_iff.1 hk).1
  have hi := (defined_of_extended? hs hext).2
  rw [isInterface_eq_false hd] at hi
  cases hi

/-- **Every node records what its declaration says.** -/
theorem isNodeOf_nodeOf (hs : s.WellFormed) (hd : d.HasTraits) : s.IsNodeOf (s.nodeOf d) d := by
  refine ⟨nodeOf_usr d, nodeOf_module d, nodeOf_name d, nodeOf_kind d, ?_, ?_⟩
  · rcases hd with hi | hp
    · rw [nodeOf, if_pos hi]
      rfl
    · rw [nodeOf, if_neg (by simp [isInterface_eq_false hp]), above?_of_isProtocol hp]
      rfl
  · rcases hd with hi | hp
    · rw [nodeOf, if_pos hi]
      rfl
    · rw [nodeOf, if_neg (by simp [isInterface_eq_false hp]), categoriesOf_of_isProtocol hs hp]
      rfl

/-- The raw trait of a node is that of its declaration. -/
theorem raw_nodeOf (d : Decl) : (s.nodeOf d).raw = s.rawTraitOf d := by
  rw [SupertraitNode.raw, nodeOf_module, nodeOf_name, nodeOf_kind]
  rfl

theorem safe_nodeOf (d : Decl) : (s.nodeOf d).safe = s.safeTraitOf d := by
  rw [SupertraitNode.safe, nodeOf_module, nodeOf_name, nodeOf_kind]
  rfl

/-- The superclass that is recorded is the one that is declared and defined. -/
theorem above?_eq_some_iff (hs : s.WellFormed) :
    s.above? d = some e ↔ ∃ children protocols typeParams usr,
      d.kind = .interface children protocols (some usr) typeParams ∧
        e ∈ s.table.definitions ∧ e.usr = usr ∧ e.isInterface = true := by
  unfold above?
  constructor
  · intro h
    split at h
    · next children protocols superclass typeParams hk =>
      obtain ⟨usr, rfl, hdef⟩ := Option.bind_eq_some_iff.1 h
      exact ⟨children, protocols, typeParams, usr, hk, (definedInterface?_eq_some_iff hs).1 hdef⟩
    · cases h
  · rintro ⟨children, protocols, typeParams, usr, hk, hdef⟩
    rw [hk]
    exact (definedInterface?_eq_some_iff hs).2 hdef

/-- The sources of the protocols that a node records. -/
theorem mem_sources_iff (hs : s.WellFormed) (homes : s.HasHomes) (hd : d ∈ s.table.definitions)
    (hkind : d.HasTraits) (he : e.HasTraits) :
    e ∈ (d :: s.categoriesOf (s.home d) d).flatMap s.adopted ↔
      s.Adopts d e ∨ ∃ module, s.moduleOf d = .ok module ∧ s.CategoryAdopts module d e := by
  rw [List.flatMap_cons, List.mem_append, adopts_iff hs he]
  refine or_congr_right ?_
  rw [← categoryAdopts_iff hs homes he]
  have hmodule := homes.items d hd (item?_of_container hkind)
  constructor
  · exact fun h => ⟨_, hmodule, h⟩
  · rintro ⟨module, housed, h⟩
    rwa [home_of_moduleOf housed]

/-- **A node is under the nodes of what its declaration is under.** -/
theorem mem_above_iff (hs : s.WellFormed) (homes : s.HasHomes) (hd : d ∈ s.table.definitions)
    (hkind : d.HasTraits) {n : SupertraitNode} (hn : s.IsNodeOf n d)
    (he : e ∈ s.table.definitions) (hekind : e.HasTraits) :
    e.usr ∈ n.above ↔ s.IsUnder d e := by
  have hprotocols : e.usr ∈ n.protocols ↔
      s.Adopts d e ∨ ∃ module, s.moduleOf d = .ok module ∧ s.CategoryAdopts module d e := by
    rw [hn.protocols, mem_map_usr_firstOfUsr hs (fun _ hx => defined_of_mem_flatMap hs hx) he,
      mem_sources_iff hs homes hd hkind hekind]
  have hsuperclass : e.usr ∈ n.superclass.toList ↔ s.above? d = some e := by
    rw [hn.superclass, Option.mem_toList, Option.map_eq_some_iff]
    constructor
    · rintro ⟨x, hx, husr⟩
      obtain ⟨_, _, _, _, _, hdef, _⟩ := (above?_eq_some_iff hs).1 hx
      rwa [← hs.table.eq_of_usr_eq hdef he husr]
    · exact fun h => ⟨e, h, rfl⟩
  rw [SupertraitNode.above, List.mem_append, hsuperclass, hprotocols, above?_eq_some_iff hs]
  constructor
  · rintro (⟨children, protocols, typeParams, usr, hk, hdef, husr, hi⟩ | hadopts | ⟨module, h, h'⟩)
    · exact .superclass hk hdef husr hi
    · exact .protocol hadopts
    · exact .category h h'
  · intro h
    cases h with
    | superclass hk hdef husr hi => exact .inl ⟨_, _, _, _, hk, hdef, husr, hi⟩
    | protocol hadopts => exact .inr (.inl hadopts)
    | category h h' => exact .inr (.inr ⟨_, h, h'⟩)

/-! ## §4. What is reached. -/

/-- What categories adopt is a definition with traits. -/
theorem CategoryAdopts.defined (h : s.CategoryAdopts module cls e) :
    e ∈ s.table.definitions ∧ e.HasTraits := by
  obtain ⟨_, _, hdef, hkind, _⟩ := h
  exact ⟨hdef, hkind⟩

/-- What something is under is a definition with traits. -/
theorem IsUnder.defined (h : s.IsUnder d e) : e ∈ s.table.definitions ∧ e.HasTraits := by
  cases h with
  | superclass _ hdef _ hi => exact ⟨hdef, .inl hi⟩
  | protocol h => exact ⟨h.1, h.2.1⟩
  | category _ h => exact h.defined

/-- What stands above a definition with traits is another one. -/
theorem IsBelow.defined (h : s.IsBelow d e) (hd : d ∈ s.table.definitions) (hkind : d.HasTraits) :
    e ∈ s.table.definitions ∧ e.HasTraits := by
  rcases Relation.ReflTransGen.cases_tail h with rfl | ⟨_, _, hunder⟩
  · exact ⟨hd, hkind⟩
  · exact hunder.defined

/-- A USR that leads to a node is that of a definition with traits. -/
theorem exists_of_node? (hs : s.WellFormed) {usr : Usr} {n : SupertraitNode}
    (h : s.supertraits.node? usr = some n) :
    ∃ e ∈ s.table.definitions, e.HasTraits ∧ e.usr = usr ∧ n = s.nodeOf e := by
  obtain ⟨hn, husr⟩ := (node?_eq_some_iff hs).1 h
  obtain ⟨e, he, hkind, rfl⟩ := (mem_supertraits_iff hs).1 hn
  exact ⟨e, he, hkind, (nodeOf_usr e).symm.trans husr, rfl⟩

/-- What is declared above is reached. -/
theorem reaches_of_isBelow (hs : s.WellFormed) (homes : s.HasHomes)
    (hd : d ∈ s.table.definitions) (hkind : d.HasTraits) (h : s.IsBelow d e) :
    s.supertraits.Reaches d.usr (s.nodeOf e) := by
  induction h with
  | refl => exact .self (node?_of_mem hs hd hkind)
  | tail hbelow hunder ih =>
      obtain ⟨hx, hxkind⟩ := IsBelow.defined hbelow hd hkind
      obtain ⟨hy, hykind⟩ := hunder.defined
      have habove := mem_above_iff hs homes hx hxkind (isNodeOf_nodeOf hs hxkind) hy hykind
      exact ih.step (habove.2 hunder) (node?_of_mem hs hy hykind)

/-- Only what is declared above is reached. -/
theorem isBelow_of_reaches (hs : s.WellFormed) (homes : s.HasHomes) {usr : Usr}
    {n : SupertraitNode} (h : s.supertraits.Reaches usr n) :
    ∀ {d}, d ∈ s.table.definitions → d.HasTraits → d.usr = usr →
      ∃ e, s.IsBelow d e ∧ n = s.nodeOf e := by
  induction h with
  | self found =>
      rintro d hd hkind rfl
      rw [node?_of_mem hs hd hkind] at found
      exact ⟨d, .refl, (Option.some.inj found).symm⟩
  | above found direct rest ih =>
      rintro d hd hkind rfl
      rw [node?_of_mem hs hd hkind] at found
      obtain rfl := Option.some.inj found
      -- What is directly above has a node, for something is reached from it.
      obtain ⟨m, hm⟩ := rest.exists_node?
      obtain ⟨e, he, hekind, rfl, -⟩ := exists_of_node? hs hm
      have hunder := (mem_above_iff hs homes hd hkind (isNodeOf_nodeOf hs hkind) he hekind).1 direct
      obtain ⟨x, hx, hn⟩ := ih he hekind rfl
      exact ⟨x, .head hunder hx, hn⟩

/-- **What a closure reaches is what is declared above.** -/
theorem reaches_iff (hs : s.WellFormed) (homes : s.HasHomes) (hd : d ∈ s.table.definitions)
    (hkind : d.HasTraits) {n : SupertraitNode} :
    s.supertraits.Reaches d.usr n ↔ ∃ e, s.IsBelow d e ∧ n = s.nodeOf e := by
  constructor
  · exact fun h => isBelow_of_reaches hs homes h hd hkind rfl
  · rintro ⟨e, hbelow, rfl⟩
    exact reaches_of_isBelow hs homes hd hkind hbelow

/-- Something is reached only from what has traits. -/
theorem hasTraits_of_reaches (hs : s.WellFormed) (hd : d ∈ s.table.definitions)
    {n : SupertraitNode} (h : s.supertraits.Reaches d.usr n) : d.HasTraits := by
  obtain ⟨m, hm⟩ := h.exists_node?
  obtain ⟨e, he, hekind, husr, -⟩ := exists_of_node? hs hm
  rwa [← hs.table.eq_of_usr_eq he hd husr]

/-- **The traits that are reached are those that are inherited.** -/
theorem inherits_iff (hs : s.WellFormed) (homes : s.HasHomes) (hd : d ∈ s.table.definitions)
    (hkind : d.HasTraits) {t : TraitRef} :
    (∃ n, s.supertraits.Reaches d.usr n ∧ n.Has t) ↔ s.Inherits d t := by
  constructor
  · rintro ⟨n, hn, hhas⟩
    obtain ⟨e, hbelow, rfl⟩ := (reaches_iff hs homes hd hkind).1 hn
    rw [SupertraitNode.Has, raw_nodeOf, safe_nodeOf] at hhas
    exact ⟨e, hbelow, hhas⟩
  · rintro ⟨e, hbelow, ht⟩
    refine ⟨s.nodeOf e, reaches_of_isBelow hs homes hd hkind hbelow, ?_⟩
    rwa [SupertraitNode.Has, raw_nodeOf, safe_nodeOf]

end Scope

end ObjcBindings
