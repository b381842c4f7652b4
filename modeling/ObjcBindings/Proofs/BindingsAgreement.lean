/-
  ObjcBindings.Proofs.BindingsAgreement
  ────────────────────────────────
  **TWO UNITS WITH THE SAME BINDINGS.**

  What a module writes stands in definitions of the region, so scopes that
  agree write the same code for the same plan.  Together with the plan, and
  with what is in use, this settles the whole run:

      within_of_writes     — a module writes types of the region only
      moduleCode           — the code of a module is the same
      bindings_of_agrees   — units whose tables agree have the same bindings
-/
import ObjcBindings.Proofs.Emission
import ObjcBindings.Proofs.PlanAgreement
import Mathlib

namespace ObjcBindings

/-- Steps for all members of a list go alike if those for each do. -/
theorem Alike.collect {α β : Type} {strict : Prop} {f g : α → Except Failure β} :
    ∀ {xs : List α}, (∀ x ∈ xs, Alike strict (f x) (g x)) →
      Alike strict (collect f xs) (collect g xs)
  | [], _ => .ok []
  | x :: xs, h => by
      obtain ⟨hx, hxs⟩ := List.forall_mem_cons.1 h
      refine hx.bind fun y _ => ?_
      exact (Alike.collect hxs).bind fun ys _ => .refl _

namespace Scope

variable {strict : Prop} {known : Usr → Bool} {s s' : Scope} {plan : Plan} {p : ModulePlan}
  {current : String}

/-! ## §1. What a module writes. -/

/-- **A module writes types of the region only.** -/
theorem Agrees.within_of_writes (h : s.Agrees strict known s') (hs : s.WellFormed)
    (hm : s.Modules plan) (hp : p ∈ plan.modules) {t : TypeExpr} (hwrites : p.Writes t) :
    t.Within known := by
  have hdefinition {d : Decl} (hd : d ∈ s.table.definitions) : d.Within known :=
    h.table.within d (List.mem_append_left _ hd)
  cases hwrites with
  | signature container method carried =>
      -- Also merged categories have their methods from definitions.
      obtain ⟨sources, hmethods, hsources⟩ := sources_of_container hs hm hp container
      rw [hmethods] at method
      obtain ⟨k, hk, hbound⟩ := List.mem_flatMap.1 method
      exact (hdefinition (hsources k hk).1).signature (mem_bound_iff.1 hbound).1
        carried.mem_types
  | field struct representable kind inside =>
      -- A struct with a layout is no stub.
      obtain ⟨hd, _, _⟩ := crosses_of_representable hm hp struct representable
      exact (hdefinition hd).field kind inside
  | target listed kind =>
      exact (hdefinition (item?_of_alias hm hp listed).1).typedef kind
  | integer listed kind =>
      exact (hdefinition (item?_of_alias hm hp listed).1).integer kind

/-! ## §2. Structs and aliases. -/

/-- Fields are written alike. -/
theorem Agrees.fieldLines (h : s.Agrees strict known s') :
    ∀ (fields : List Decl) (i : Nat), (∀ t ∈ fieldTypes fields, t.Within known) →
      Alike strict (s.fieldLines current i fields) (s'.fieldLines current i fields)
  | [], _, _ => .ok []
  | f :: fs, i, hw => by
      unfold Scope.fieldLines
      split
      · next type width hk =>
        rw [fieldTypes_cons hk] at hw
        obtain ⟨hfirst, hrest⟩ := List.forall_mem_cons.1 hw
        refine (h.raw current hfirst).bind fun rust _ => ?_
        exact (h.fieldLines fs (i + 1) hrest).bind fun ls _ => .refl _
      · next hk =>
        -- A member that is no field is left out.
        refine h.fieldLines fs (i + 1) fun t ht => hw t ?_
        obtain ⟨member, hmember, ht⟩ := List.mem_filterMap.1 ht
        exact List.mem_filterMap.2 ⟨member, List.mem_cons_of_mem f hmember, ht⟩

theorem Agrees.structItem (h : s.Agrees strict known s')
    (hw : ∀ t, p.Writes t → t.Within known) {st : StructPlan} (hst : st ∈ p.structs) :
    Alike strict (s.structItem p.name st) (s'.structItem p.name st) := by
  unfold Scope.structItem
  simp only [h.tagName]
  split
  · next fields tag hk hr =>
    have hfields : ∀ t ∈ fieldTypes fields, t.Within known :=
      fun t ht => hw t (.field hst hr hk ht)
    exact (h.fieldLines fields 0 hfields).bind fun ls _ => .refl _
  · exact .refl _

theorem Agrees.aliasTarget (h : s.Agrees strict known s') {t : TypeExpr} (hw : t.Within known) :
    Alike strict (s.aliasTarget current t) (s'.aliasTarget current t) := by
  refine (h.isObjectLike [] t hw).bind fun isObject _ => ?_
  cases isObject with
  | true => exact (h.safe current hw).bind fun safe _ => .refl _
  | false => exact h.raw current hw

theorem Agrees.aliasItem (h : s.Agrees strict known s')
    (hw : ∀ t, p.Writes t → t.Within known) {d : Decl} (hd : d ∈ p.aliases) :
    Alike strict (s.aliasItem p.name d) (s'.aliasItem p.name d) := by
  unfold Scope.aliasItem
  simp only [h.tagName]
  split
  · next integerType isClosed enumerators hk =>
    have hinteger : Alike strict (s.enumInteger p.name integerType)
        (s'.enumInteger p.name integerType) := by
      cases integerType with
      | none => exact .refl _
      | some t => exact h.raw p.name (hw t (.integer hd hk))
    exact hinteger.bind fun integer _ => .refl _
  · next type hk =>
    exact (h.aliasTarget (hw type (.target hd hk))).bind fun target _ => .refl _
  · exact .refl _

/-! ## §3. Methods. -/

section Method

variable {bound : BoundMethod} (hw : ∀ t, bound.method.Carries t → t.Within known)
include hw

/-- The types of parameters are of the region. -/
theorem within_param {x : String × Param} (hx : x ∈ bound.params.zip bound.method.params) :
    x.2.type.Within known :=
  hw x.2.type (.param (List.of_mem_zip hx).2)

theorem within_result (hresult : ¬ bound.method.returnsVoid = true) :
    bound.method.result.Within known :=
  hw bound.method.result (.result fun hvoid => hresult (TypeExpr.isVoid_iff.2 hvoid))

/-- Raw functions are written alike. -/
theorem Agrees.rawFunction (h : s.Agrees strict known s') (selectors : SelectorTable) :
    Alike strict (s.rawFunction current selectors bound)
      (s'.rawFunction current selectors bound) := by
  refine (Alike.collect fun x hx => (h.raw current (within_param hw hx)).map _).bind
    fun params _ => ?_
  by_cases hv : bound.method.returnsVoid = true
  · simp only [hv, if_true]
    exact .refl _
  · simp only [hv]
    exact (h.raw current (within_result hw hv)).bind fun result _ => .refl _

theorem Agrees.safeFunction (h : s.Agrees strict known s') (rawTrait : String) :
    Alike strict (s.safeFunction current rawTrait bound)
      (s'.safeFunction current rawTrait bound) := by
  have hresult : Alike strict (s.safeResult current bound.method)
      (s'.safeResult current bound.method) := by
    unfold safeResult
    split
    · exact .refl _
    · next hv => exact (h.safe current (within_result hw hv)).map _
  refine (Alike.collect fun x hx => (h.safe current (within_param hw hx)).map _).bind
    fun params _ => ?_
  exact hresult.bind fun result _ => .refl _

end Method

/-! ## §4. Containers. -/

/-- The base of a raw trait is the same. -/
theorem Agrees.rawBase (h : s.Agrees strict known s') (c : Container) :
    s'.rawBase current c = s.rawBase current c := by
  rw [Scope.rawBase, Scope.rawBase, h.qualify]

theorem Agrees.implTarget? (h : s.Agrees strict known s') (c : Container) :
    s'.implTarget? current c = s.implTarget? current c := by
  rw [Scope.implTarget?, Scope.implTarget?, h.qualify]

/-- Containers are written alike. -/
theorem Agrees.containerItem (h : s.Agrees strict known s')
    (hw : ∀ t, p.Writes t → t.Within known) (selectors : SelectorTable) {c : Container}
    (hc : c ∈ p.containers) :
    Alike strict (s.containerItem p.name selectors c) (s'.containerItem p.name selectors c) := by
  have hmethods : ∀ bound ∈ bindMethods c.methods, ∀ t, bound.method.Carries t →
      t.Within known :=
    fun bound hb t ht => hw t (.signature hc (method_of_mem_bindMethods hb) ht)
  have hraw : Alike strict (s.rawTrait p.name selectors c (bindMethods c.methods))
      (s'.rawTrait p.name selectors c (bindMethods c.methods)) := by
    refine (Alike.of_eq (h.rawBase c).symm).bind fun base _ => ?_
    refine (Alike.collect fun bound hb => ?_).bind fun functions _ => .refl _
    exact h.rawFunction (hmethods bound hb) selectors
  have hsafe : Alike strict (s.safeTrait p.name c (bindMethods c.methods))
      (s'.safeTrait p.name c (bindMethods c.methods)) := by
    refine (Alike.collect fun bound hb => ?_).bind fun functions _ => .refl _
    exact h.safeFunction (hmethods bound hb) c.rawTraitName
  refine hraw.bind fun raw _ => ?_
  refine hsafe.bind fun safe _ => ?_
  exact (Alike.of_eq (h.implTarget? c).symm).bind fun target _ => .refl _

/-! ## §5. Modules. -/

/-- **The code of a module is the same.** -/
theorem Agrees.moduleCode (h : s.Agrees strict known s')
    (hw : ∀ t, p.Writes t → t.Within known) :
    Alike strict (s.moduleCode p) (s'.moduleCode p) := by
  have hitems : Alike strict (s.moduleItems p) (s'.moduleItems p) := by
    refine (Alike.collect fun st hst => h.structItem hw hst).bind fun structs _ => ?_
    refine (Alike.collect fun d hd => h.aliasItem hw hd).bind fun aliases _ => ?_
    refine (Alike.collect fun c hc => h.containerItem hw p.selectors hc).bind ?_
    exact fun containers _ => .refl _
  exact hitems.bind fun items _ => .refl _

/-- **The code of all modules is the same.** -/
theorem Agrees.modulesOf (h : s.Agrees strict known s') (hs : s.WellFormed)
    (hplan : s.plan = .ok plan) : Alike strict (s.modulesOf plan) (s'.modulesOf plan) := by
  refine Alike.collect fun p hp => (h.moduleCode fun t ht => ?_).map _
  exact h.within_of_writes hs (modules_of_plan hs hplan) (mem_listing_iff.1 hp) ht

end Scope

/-! ## §6. Units. -/

/-- Tables that agree make scopes that agree. -/
theorem Table.Agrees.scope {strict : Prop} {known : Usr → Bool} {t t' : Table}
    (h : t.Agrees strict known t') {used : Used} (hused : t.used = .ok used)
    (rules : List ModuleRule) :
    Scope.Agrees strict known ⟨t, used, rules, t.tagNames⟩ ⟨t', used, rules, t'.tagNames⟩ where
  table := h
  used := rfl
  rules := rfl
  tagNames := h.tagNames
  inUse _ husr := h.known_of_used hused husr

/-- **Units whose tables agree have the same bindings, or none.** -/
theorem bindings_of_agrees {strict : Prop} {known : Usr → Bool} {unit unit' : TranslationUnit}
    {t t' : Table} (ht : Table.ofUnit unit = .ok t) (ht' : Table.ofUnit unit' = .ok t')
    (h : t.Agrees strict known t') (rules : List ModuleRule) (header : Option String) :
    Alike strict (unit.bindings rules header) (unit'.bindings rules header) := by
  unfold TranslationUnit.bindings Scope.ofUnit
  rw [ht, ht']
  rcases h.used.elim with ⟨used, hx, hy⟩ | ⟨e, e', hx, hy, same⟩
  · -- The first unit has a scope, which is well formed.
    have hunit : Scope.ofUnit unit rules = .ok ⟨t, used, rules, t.tagNames⟩ := by
      unfold Scope.ofUnit
      rw [ht]
      exact bind_eq_ok_iff.2 ⟨t, rfl, bind_eq_ok_iff.2 ⟨used, hx, rfl⟩⟩
    have hscope := h.scope hx rules
    simp only [hx, hy, bind, Except.bind]
    refine hscope.plan.bind fun plan hplan => ?_
    exact (hscope.modulesOf (Scope.wellFormed_of_ofUnit hunit) hplan).bind fun modules _ => .refl _
  · simp only [hx, hy, bind, Except.bind]
    exact .error same

end ObjcBindings
