/-
  ObjcBindings.Proofs.CategoryMerging
  ────────────────────────────────
  **MERGING CATEGORIES LOSES, REPEATS AND MISPLACES NOTHING.**

  A category of the module of its class joins the class's own container; all
  others join the one container that their module has for the class.  For
  every class and every module, the containers that result hold exactly the
  methods and protocols of the declarations that belong there, in the order of
  the definitions:

      Container.Holds      — the contents of some declarations, one after the other
      MergesCategories     — every class has its containers, and no others
-/
import ObjcBindings.Proofs.FinishedModules
import Mathlib

namespace ObjcBindings

/-! ## §1. What has to hold. -/

/-- The container holds the methods of the declarations that can be bound, one
declaration after the other, and of their defined protocols the first of each
USR. -/
def Container.Holds (s : Scope) (c : Container) (sources : List Decl) : Prop :=
  c.methods = sources.flatMap s.bound ∧ c.protocols = firstOfUsr (sources.flatMap s.adopted)

/-- The containers with a declaration, among some. -/
def containersFor (cls : Decl) (cs : List Container) : List Container :=
  cs.filter fun c => c.decl = cls

namespace Scope

/-- Every class has one container with the categories of its own module, and
one in every other module that has categories for it. -/
structure MergesCategories (s : Scope) (plan : Plan) : Prop where
  /-- No two modules have one name. -/
  distinct : (plan.modules.map ModulePlan.name).Nodup
  /-- The plan has the module of every class and of every category of one. -/
  housed : ∀ d ∈ s.table.definitions, d.isInterface = true ∨ (s.extended? d).isSome →
    s.moduleOf d = .ok (s.home d) ∧ ∃ p ∈ plan.modules, p.name = s.home d
  /-- In its own module a class has its interface's container only, which
  holds the class and the module's categories. -/
  own : ∀ cls ∈ s.table.definitions, cls.isInterface = true →
    ∀ p ∈ plan.modules, p.name = s.home cls →
      containersFor cls p.categories = [] ∧
      ∃ c, containersFor cls p.interfaces = [c] ∧
        c.Holds s (cls :: s.categoriesOf p.name cls)
  /-- In another module it has one container for categories if the module has
  categories for it, and none otherwise. -/
  other : ∀ cls ∈ s.table.definitions, cls.isInterface = true →
    ∀ p ∈ plan.modules, p.name ≠ s.home cls →
      containersFor cls p.interfaces = [] ∧
      (s.categoriesOf p.name cls = [] → containersFor cls p.categories = []) ∧
      (s.categoriesOf p.name cls ≠ [] → ∃ c, containersFor cls p.categories = [c] ∧
        c.Holds s (s.categoriesOf p.name cls))
  /-- The containers for categories stand in the order of the last category of
  each: of the classes that the module's categories extend, one for each
  category, the last occurrence of each class stays. -/
  ordered : ∀ p ∈ plan.modules, p.categories.map Container.decl = (s.visited p.name).dedup

/-! ## §2. Containers of one declaration. -/

variable {s : Scope} {plan : Plan} {p : ModulePlan} {cls : Decl}

/-- Containers that are made of distinct declarations: one for each of these. -/
theorem containersFor_of_map {cs : List Container} {l : List Decl} {f : Decl → Container}
    (hcs : cs.map Container.forget = l.map f) (hf : ∀ d, (f d).decl = d) (hl : l.Nodup)
    (cls : Decl) :
    (cls ∉ l → containersFor cls cs = []) ∧
      (cls ∈ l → ∃ c, containersFor cls cs = [c] ∧ c.forget = f cls) := by
  -- The containers for the class come from the occurrences of the class.
  have hforget : (containersFor cls cs).map Container.forget = (l.filter (· = cls)).map f := by
    have hleft : (containersFor cls cs).map Container.forget
        = (cs.map Container.forget).filter fun c => c.decl = cls := by
      rw [List.filter_map]
      rfl
    rw [hleft, hcs, List.filter_map]
    congr 2
    funext d
    simp [hf]
  constructor
  · intro hcls
    have hnone : l.filter (· = cls) = [] :=
      List.filter_eq_nil_iff.2 fun d hd he => hcls (of_decide_eq_true he ▸ hd)
    rw [hnone] at hforget
    exact List.map_eq_nil_iff.1 hforget
  · intro hcls
    rw [filter_eq_singleton hl hcls] at hforget
    exact List.map_eq_singleton_iff.1 hforget

/-- A container that was made of some declarations holds them. -/
theorem holds_of_forget {c : Container} {kind : ContainerKind} {target : Decl}
    {module : String} {superclass : Option Decl} {sources : List Decl}
    (h : c.forget = s.containerOf kind target module superclass sources) :
    c.Holds s sources :=
  ⟨congrArg Container.methods h, congrArg Container.protocols h⟩

/-! ## §3. Interfaces. -/

/-- The containers of interfaces are those of the module's interfaces. -/
theorem containersFor_interfaces (hs : s.WellFormed) (hm : s.Modules plan)
    (hp : p ∈ plan.modules) (hd : cls ∈ s.table.definitions) (hi : cls.isInterface = true) :
    (p.name ≠ s.home cls → containersFor cls p.interfaces = []) ∧
      (p.name = s.home cls → ∃ c, containersFor cls p.interfaces = [c] ∧
        c.Holds s (cls :: s.categoriesOf p.name cls)) := by
  have hone := containersFor_of_map (forget_interfaces hs hm hp) (fun _ => rfl)
    (hs.nodup_definitions.filter _) cls
  constructor
  · intro hne
    apply hone.1
    intro hmem
    have hhome := (List.mem_filter.1 hmem).2
    simp [hi, Ne.symm hne] at hhome
  · intro he
    obtain ⟨c, hc, hforget⟩ := hone.2 (List.mem_filter.2 ⟨hd, by simp [hi, he]⟩)
    refine ⟨c, hc, ?_⟩
    rw [he]
    exact holds_of_forget hforget

/-! ## §4. Categories. -/

/-- A class of another module is visited if the module has categories for it. -/
theorem mem_visited_iff {name : String} :
    cls ∈ s.visited name ↔ s.home cls ≠ name ∧ s.categoriesOf name cls ≠ [] := by
  have hcategories : s.categoriesOf name cls ≠ [] ↔
      ∃ k ∈ s.table.definitions, s.extended? k = some cls ∧ s.home k = name := by
    rw [categoriesOf, ne_eq, List.filter_eq_nil_iff]
    simp
  rw [hcategories, visited, List.mem_filterMap]
  constructor
  · rintro ⟨k, hk, hext⟩
    obtain ⟨hext, hvisit⟩ := Option.filter_eq_some_iff.1 hext
    obtain ⟨hhome, hforeign⟩ := Bool.and_eq_true_iff.1 hvisit
    exact ⟨bne_iff_ne.1 hforeign, k, hk, hext, beq_iff_eq.1 hhome⟩
  · rintro ⟨hforeign, k, hk, hext, hhome⟩
    exact ⟨k, hk, Option.filter_eq_some_iff.2 ⟨hext, by simp [hhome, hforeign]⟩⟩

/-- The containers for categories are those of the classes visited. -/
theorem containersFor_categories (hs : s.WellFormed) (hm : s.Modules plan)
    (hp : p ∈ plan.modules) (cls : Decl) :
    (cls ∉ s.visited p.name → containersFor cls p.categories = []) ∧
      (cls ∈ s.visited p.name → ∃ c, containersFor cls p.categories = [c] ∧
        c.Holds s (s.categoriesOf p.name cls)) := by
  have hone := containersFor_of_map (forget_categories hs hm hp) (fun _ => rfl)
    (List.nodup_dedup _) cls
  constructor
  · exact fun hnot => hone.1 fun hmem => hnot (List.mem_dedup.1 hmem)
  · intro hmem
    obtain ⟨c, hc, hforget⟩ := hone.2 (List.mem_dedup.2 hmem)
    exact ⟨c, hc, holds_of_forget hforget⟩

/-! ## §5. The theorem. -/

/-- **Every plan merges categories exactly**, whatever the order in which the
categories of several classes and modules are defined. -/
theorem plan_mergesCategories {unit : TranslationUnit} {rules : List ModuleRule}
    (hunit : Scope.ofUnit unit rules = .ok s) (hplan : s.plan = .ok plan) :
    s.MergesCategories plan := by
  have hs := wellFormed_of_ofUnit hunit
  have hm := modules_of_plan hs hplan
  obtain ⟨homes, _⟩ := plan_eq_ok hs hplan
  constructor
  case distinct => exact hm.nodup_names
  case housed =>
    rintro d hd (hi | hext)
    · have hitem : (s.item? d).isSome := item?_of_isInterface hi
      exact ⟨homes.items d hd hitem, hm.exists_of_mem (home_mem_of_item hd hitem)⟩
    · obtain ⟨cls, hcls⟩ := Option.isSome_iff_exists.1 hext
      exact ⟨homes.categories d hd hext, hm.exists_of_mem (home_mem_of_extended hd hcls)⟩
  case own =>
    intro cls hd hi p hp hname
    refine ⟨?_, (containersFor_interfaces hs hm hp hd hi).2 hname⟩
    -- A class is visited from other modules only.
    apply (containersFor_categories hs hm hp cls).1
    exact fun hvisited => (mem_visited_iff.1 hvisited).1 hname.symm
  case other =>
    intro cls hd hi p hp hname
    refine ⟨(containersFor_interfaces hs hm hp hd hi).1 hname, ?_, ?_⟩
    · intro hnone
      apply (containersFor_categories hs hm hp cls).1
      exact fun hvisited => (mem_visited_iff.1 hvisited).2 hnone
    · intro hsome
      exact (containersFor_categories hs hm hp cls).2 (mem_visited_iff.2 ⟨hname.symm, hsome⟩)
  case ordered =>
    intro p hp
    have hdecls : (p.categories.map Container.forget).map Container.decl
        = p.categories.map Container.decl := by
      rw [List.map_map]
      rfl
    rw [← hdecls, forget_categories hs hm hp, List.map_map]
    exact List.map_id' _

end Scope

/-- Two classes of the core module, each with one category there and with
categories of the module `ui`, whose definitions alternate. -/
def shapeUnit : TranslationUnit where
  children :=
    [.implicit "p:Drawing" "Drawing" (.protocol [] []),
     .implicit "c:Shape" "Shape" (.interface [.ofMethod "draw" [] (.builtin "Void")]
       ["Drawing"] none []),
     .implicit "c:Text" "Text" (.interface [] [] none []),
     .inFile "ui.h" "k:1" "Fill" (.category "Shape" [.ofMethod "fill" [] (.builtin "Void")] []),
     .inFile "ui.h" "k:2" "Flow" (.category "Text" [.ofMethod "flow" [] (.builtin "Void")] []),
     .implicit "k:3" "Near" (.category "Shape" [.ofMethod "near" [] (.builtin "Void")]
       ["Drawing"]),
     .inFile "ui.h" "k:4" "Line" (.category "Shape" [.ofMethod "line" [] (.builtin "Void")]
       ["Drawing"])]

/-- The plan of these classes merges their categories. -/
theorem shape_mergesCategories :
    ∃ s plan, Scope.ofUnit shapeUnit uiRules = .ok s ∧ s.plan = .ok plan
      ∧ s.MergesCategories plan := by
  have hok : ((Scope.ofUnit shapeUnit uiRules).bind Scope.plan).isOk = true := by cbv
  obtain ⟨s, plan, hs, hp⟩ := Scope.exists_plan_of_isOk hok
  exact ⟨s, plan, hs, hp, Scope.plan_mergesCategories hs hp⟩

end ObjcBindings
