/-
  ObjcBindings.Proofs.Emission
  ────────────────────────────────
  **AFTER PLANNING NOTHING FAILS.**

  The code of a module is put together from spelled types and from names of
  declarations as they are seen from the module.  Both can fail.  Of what is
  planned they do not:

      Spells        — a type is spelled in every way that code asks for
      Emits         — all that a module writes is spelled, and the class of
                      every category has a module

    • `emits_of_plan`     — the modules of a plan have these properties,
    • `moduleCode_ok`     — and they are all that the code of a module needs,
    • `bindings_of_plan`  — so a unit with a plan has bindings.
-/
import ObjcBindings.Bindings.Source
import ObjcBindings.Proofs.WrittenTypes

namespace ObjcBindings

open Text

/-! ## §1. What the code of a module needs. -/

/-- The type is spelled in module `current`, in both layers and as the target
of an alias. -/
structure Scope.Spells (s : Scope) (current : String) (t : TypeExpr) : Prop where
  raw : ∃ text, s.raw current t = .ok text
  safe : ∃ safe, s.safe current t = .ok safe
  objectLike : ∃ b, s.isObjectLike [] t = .ok b

/-- Everything that can fail while code is written succeeds for this module. -/
structure Scope.Emits (s : Scope) (p : ModulePlan) : Prop where
  types : ∀ t, p.Writes t → s.Spells p.name t
  owners : ∀ c ∈ p.containers, c.kind = .category →
    ∃ module, s.moduleOf c.decl = .ok module

/-- A pass succeeds if each of its steps does. -/
theorem collect_ok {α β : Type} {f : α → Except Failure β} :
    ∀ {xs : List α}, (∀ x ∈ xs, ∃ y, f x = .ok y) → ∃ ys, collect f xs = .ok ys
  | [], _ => ⟨[], rfl⟩
  | x :: xs, h => by
      have hrest : ∃ ys, collect f xs = .ok ys :=
        collect_ok fun y hy => h y (List.mem_cons_of_mem x hy)
      refine bind_ok (h x List.mem_cons_self) fun y => ?_
      exact bind_ok hrest fun ys => ⟨_, rfl⟩

/-- The methods that are kept are some of those given. -/
theorem mem_of_mem_distinctMethods {m : Method} :
    ∀ {methods : List Method} {seen : List (String × Bool)},
      m ∈ distinctMethods seen methods → m ∈ methods
  | [], _, h => h
  | x :: xs, seen, h => by
      simp only [distinctMethods] at h
      split at h
      · exact List.mem_cons_of_mem x (mem_of_mem_distinctMethods h)
      · rcases List.mem_cons.1 h with rfl | h
        · exact List.mem_cons_self
        · exact List.mem_cons_of_mem x (mem_of_mem_distinctMethods h)

/-- A method with its names is a method of the container. -/
theorem method_of_mem_bindMethods {methods : List Method} {bound : BoundMethod}
    (h : bound ∈ bindMethods methods) : bound.method ∈ methods := by
  unfold bindMethods at h
  rw [← List.map_uncurry_zip_eq_zipWith] at h
  obtain ⟨x, hx, rfl⟩ := List.mem_map.1 h
  exact mem_of_mem_distinctMethods (List.of_mem_zip hx).1

namespace Scope

variable {s : Scope} {plan : Plan} {p : ModulePlan} {current : String}

/-! ## §2. Structs and aliases. -/

/-- Fields are written if their types are spelled. -/
theorem fieldLines_ok : ∀ {fields : List Decl} (i : Nat),
    (∀ t ∈ fieldTypes fields, s.Spells current t) → ∃ ls, s.fieldLines current i fields = .ok ls
  | [], _, _ => ⟨[], rfl⟩
  | f :: fs, i, h => by
      unfold fieldLines
      split
      · next type width hk =>
          rw [fieldTypes_cons hk] at h
          obtain ⟨hfirst, hrest⟩ := List.forall_mem_cons.1 h
          refine bind_ok hfirst.raw fun rust => ?_
          exact bind_ok (fieldLines_ok (i + 1) hrest) fun ls => ⟨_, rfl⟩
      · next hk =>
          -- A member that is no field has no type to spell.
          refine fieldLines_ok (i + 1) fun t ht => h t ?_
          obtain ⟨member, hmember, ht⟩ := List.mem_filterMap.1 ht
          exact List.mem_filterMap.2 ⟨member, List.mem_cons_of_mem f hmember, ht⟩

/-- A struct is written. -/
theorem structItem_ok (h : s.Emits p) {st : StructPlan} (hst : st ∈ p.structs) :
    ∃ item, s.structItem p.name st = .ok item := by
  unfold structItem
  split
  · next fields tag hk hr =>
      have hfields : ∀ t ∈ fieldTypes fields, s.Spells p.name t :=
        fun t ht => h.types t (.field hst hr hk ht)
      exact bind_ok (fieldLines_ok 0 hfields) fun ls => ⟨_, rfl⟩
  · exact ⟨_, rfl⟩

/-- What an alias stands for is written if it is spelled. -/
theorem aliasTarget_ok {t : TypeExpr} (h : s.Spells current t) :
    ∃ text, s.aliasTarget current t = .ok text := by
  -- An object is spelled as users see it, everything else as it is passed.
  refine bind_ok h.objectLike fun isObject => ?_
  cases isObject with
  | true => exact bind_ok h.safe fun safe => ⟨_, rfl⟩
  | false => exact h.raw

/-- An alias is written. -/
theorem aliasItem_ok (h : s.Emits p) {d : Decl} (hd : d ∈ p.aliases) :
    ∃ item, s.aliasItem p.name d = .ok item := by
  unfold aliasItem
  split
  · next integerType isClosed enumerators hk =>
      have hinteger : ∃ text, s.enumInteger p.name integerType = .ok text := by
        cases integerType with
        | none => exact ⟨_, rfl⟩
        | some t => exact (h.types t (.integer hd hk)).raw
      exact bind_ok hinteger fun integer => ⟨_, rfl⟩
  · next type hk =>
      exact bind_ok (aliasTarget_ok (h.types type (.target hd hk))) fun target => ⟨_, rfl⟩
  · exact ⟨_, rfl⟩

/-! ## §3. Methods. -/

/-- All that the method carries is spelled. -/
def SpellsMethod (s : Scope) (current : String) (m : Method) : Prop :=
  ∀ t, m.Carries t → s.Spells current t

/-- The types of parameters are spelled. -/
theorem SpellsMethod.param {m : Method} (h : s.SpellsMethod current m) {names : List String}
    {x : String × Param} (hx : x ∈ names.zip m.params) : s.Spells current x.2.type :=
  h x.2.type (.param (List.of_mem_zip hx).2)

/-- The type of a result that is not `void` is spelled. -/
theorem SpellsMethod.result {m : Method} (h : s.SpellsMethod current m)
    (hresult : ¬ m.returnsVoid = true) : s.Spells current m.result :=
  h m.result (.result fun hvoid => hresult (TypeExpr.isVoid_iff.2 hvoid))

/-- A raw function is written. -/
theorem rawFunction_ok {selectors : SelectorTable} {bound : BoundMethod}
    (h : s.SpellsMethod current bound.method) :
    ∃ text, s.rawFunction current selectors bound = .ok text := by
  have hparams : ∃ params, collect
      (fun (x : String × Param) => (s.raw current x.2.type).map (x.1 ++ ": " ++ ·))
      (bound.params.zip bound.method.params) = .ok params :=
    collect_ok fun x hx => map_ok (h.param hx).raw
  refine bind_ok hparams fun params => ?_
  by_cases hv : bound.method.returnsVoid = true
  · simp only [hv, if_true]
    exact ⟨_, rfl⟩
  · simp only [hv]
    exact bind_ok (h.result hv).raw fun result => ⟨_, rfl⟩

/-- The parameters of a safe function are written. -/
theorem safeParams_ok {bound : BoundMethod} (h : s.SpellsMethod current bound.method) :
    ∃ params, s.safeParams current bound = .ok params :=
  collect_ok fun _ hx => map_ok (h.param hx).safe

/-- The result of a safe function is written. -/
theorem safeResult_ok {m : Method} (h : s.SpellsMethod current m) :
    ∃ result, s.safeResult current m = .ok result := by
  unfold safeResult
  split
  · exact ⟨_, rfl⟩
  · next hv => exact map_ok (h.result hv).safe

/-- A safe function is written. -/
theorem safeFunction_ok {rawTrait : String} {bound : BoundMethod}
    (h : s.SpellsMethod current bound.method) :
    ∃ text, s.safeFunction current rawTrait bound = .ok text := by
  refine bind_ok (safeParams_ok h) fun params => ?_
  exact bind_ok (safeResult_ok h) fun result => ⟨_, rfl⟩

/-! ## §4. Containers. -/

/-- A declaration with a module has a qualified name. -/
theorem qualify_ok {d : Decl} (h : ∃ module, s.moduleOf d = .ok module) (name : String) :
    ∃ text, s.qualify name d current = .ok text := by
  obtain ⟨module, hmodule⟩ := h
  refine ⟨qualifyIn module name current, ?_⟩
  rw [qualify, hmodule]

/-- The base of a raw trait is written. -/
theorem rawBase_ok (h : s.Emits p) {c : Container} (hc : c ∈ p.containers) :
    ∃ base, s.rawBase p.name c = .ok base := by
  unfold rawBase
  split
  · next hk => exact qualify_ok (h.owners c hc hk) _
  · exact ⟨_, rfl⟩

/-- The type that implements a trait is written. -/
theorem implTarget?_ok (h : s.Emits p) {c : Container} (hc : c ∈ p.containers) :
    ∃ target, s.implTarget? p.name c = .ok target := by
  unfold implTarget?
  split
  · exact ⟨_, rfl⟩
  · next hk => exact map_ok (qualify_ok (h.owners c hc hk) _)
  · exact ⟨_, rfl⟩

/-- A container is written. -/
theorem containerItem_ok (h : s.Emits p) {selectors : SelectorTable} {c : Container}
    (hc : c ∈ p.containers) : ∃ item, s.containerItem p.name selectors c = .ok item := by
  -- Names are given to methods of the container, and these are written.
  have hmethods : ∀ bound ∈ bindMethods c.methods, s.SpellsMethod p.name bound.method :=
    fun bound hb t ht => h.types t (.signature hc (method_of_mem_bindMethods hb) ht)
  have hraw : ∃ text, s.rawTrait p.name selectors c (bindMethods c.methods) = .ok text := by
    refine bind_ok (rawBase_ok h hc) fun base => ?_
    refine bind_ok (collect_ok fun bound hb => ?_) fun functions => ⟨_, rfl⟩
    exact rawFunction_ok (hmethods bound hb)
  have hsafe : ∃ text, s.safeTrait p.name c (bindMethods c.methods) = .ok text := by
    refine bind_ok (collect_ok fun bound hb => ?_) fun functions => ⟨_, rfl⟩
    exact safeFunction_ok (hmethods bound hb)
  refine bind_ok hraw fun raw => ?_
  refine bind_ok hsafe fun safe => ?_
  exact bind_ok (implTarget?_ok h hc) fun target => ⟨_, rfl⟩

/-! ## §5. Modules. -/

/-- **The code of a module is written.** -/
theorem moduleCode_ok (h : s.Emits p) : ∃ code, s.moduleCode p = .ok code := by
  have hitems : ∃ items, s.moduleItems p = .ok items := by
    refine bind_ok (collect_ok fun st hst => structItem_ok h hst) fun structs => ?_
    refine bind_ok (collect_ok fun d hd => aliasItem_ok h hd) fun aliases => ?_
    exact bind_ok (collect_ok fun c hc => containerItem_ok h hc) fun containers => ⟨_, rfl⟩
  exact bind_ok hitems fun items => ⟨_, rfl⟩

/-! ## §6. Plans. -/

/-- What a name resolves to has a module. -/
theorem moduleOf_of_resolves {ident : String} {d : Decl} (h : plan.Resolves s ident d) :
    ∃ module, s.moduleOf d = .ok module := by
  obtain ⟨p, _, _, hmodule, _⟩ := h
  exact ⟨p.name, hmodule⟩

/-- What a module writes is spelled. -/
theorem spells_of_writes (hs : s.WellFormed) (hb : s.HasBareStubs) (hplan : s.plan = .ok plan)
    (hp : p ∈ plan.modules) {t : TypeExpr} (h : p.Writes t) : s.Spells current t := by
  obtain ⟨⟨use, hcross⟩, hcovers⟩ := crosses_of_writes hs (modules_of_plan hs hplan) hp h
  -- What a spelling names is declared somewhere, so it can be qualified.
  have hplaced : ∀ {r : RustType}, (∀ x ∈ r.names, s.Placeable x.1 x.2) →
      ∃ text, s.write current r = .ok text := fun hnames => s.write_ok current fun x hx =>
    moduleOf_of_resolves (resolves_of_placeable hs hplan (hnames x hx))
  constructor
  case raw =>
    obtain ⟨r, hr, hnames⟩ := rawType_names hs hb hcross (fresh_nil t) hcovers
    obtain ⟨text, htext⟩ := hplaced hnames
    exact ⟨text, bind_eq_ok_iff.2 ⟨r, hr, htext⟩⟩
  case safe =>
    obtain ⟨form, hform, hnames⟩ := safeForm_names hs hb hcross (fresh_nil t) hcovers
    obtain ⟨safe, hsafe⟩ := map_ok (hplaced hnames)
    exact ⟨safe, bind_eq_ok_iff.2 ⟨form, hform, hsafe⟩⟩
  case objectLike => exact isObjectLike_ok hcross (fresh_nil t)

/-- The class of a category has a module. -/
theorem moduleOf_owner (hs : s.WellFormed) (hplan : s.plan = .ok plan) (hp : p ∈ plan.modules)
    {c : Container} (hc : c ∈ p.containers) (hk : c.kind = .category) :
    ∃ module, s.moduleOf c.decl = .ok module := by
  have hm := modules_of_plan hs hplan
  obtain ⟨homes, _⟩ := plan_eq_ok hs hplan
  rcases List.mem_append.1 hc with hc | hc
  · -- Interfaces and protocols are of other kinds.
    rcases List.mem_append.1 hc with hc | hc
    · obtain ⟨d, _, _, _, he⟩ := forget_of_interface hs hm hp hc
      have hkind : c.kind = .interface := congrArg Container.kind he
      rw [hkind] at hk
      cases hk
    · obtain ⟨d, _, _, he⟩ := forget_of_protocol hm hp hc
      have hkind : c.kind = .protocol := congrArg Container.kind he
      rw [hkind] at hk
      cases hk
  · obtain ⟨cls, hdef, hi, he⟩ := forget_of_category hs hm hp hc
    have hdecl : c.decl = cls := congrArg Container.decl he
    rw [hdecl]
    exact ⟨s.home cls, homes.items cls hdef (item?_of_isInterface hi)⟩

/-- **What is planned can be written.** -/
theorem emits_of_plan (hs : s.WellFormed) (hb : s.HasBareStubs) (hplan : s.plan = .ok plan)
    (hp : p ∈ plan.modules) : s.Emits p where
  types _ h := spells_of_writes hs hb hplan hp h
  owners _ hc hk := moduleOf_owner hs hplan hp hc hk

/-- The modules are listed in another order, but they are the same. -/
theorem mem_listing_iff {plan : Plan} {p : ModulePlan} :
    p ∈ plan.listing ↔ p ∈ plan.modules := by
  unfold Plan.listing
  by_cases hcore : p.name = coreModule <;> simp [hcore]

/-- **A unit with a plan has bindings**, whatever comment they carry: no
failure arises while the code of the modules is written. -/
theorem bindings_of_plan {unit : TranslationUnit} {rules : List ModuleRule}
    (hbare : unit.HasBareForwards) (hunit : Scope.ofUnit unit rules = .ok s)
    (hplan : s.plan = .ok plan) :
    ∃ modules, s.modulesOf plan = .ok modules
      ∧ ∀ header, unit.bindings rules header = .ok ⟨header, modules⟩ := by
  have hs := wellFormed_of_ofUnit hunit
  have hb := hasBareStubs_of_ofUnit hunit hbare
  obtain ⟨modules, hmodules⟩ : ∃ modules, s.modulesOf plan = .ok modules := by
    refine collect_ok fun p hp => map_ok (moduleCode_ok ?_)
    exact emits_of_plan hs hb hplan (mem_listing_iff.1 hp)
  refine ⟨modules, hmodules, fun header => ?_⟩
  unfold TranslationUnit.bindings
  rw [hunit]
  refine bind_eq_ok_iff.2 ⟨s, rfl, bind_eq_ok_iff.2 ⟨plan, hplan, ?_⟩⟩
  exact bind_eq_ok_iff.2 ⟨modules, hmodules, rfl⟩

end Scope

/-- A unit with types of every kind has bindings. -/
theorem canvas_bindings :
    canvasUnit.HasBareForwards ∧ ∃ s plan modules, Scope.ofUnit canvasUnit uiRules = .ok s
      ∧ s.plan = .ok plan ∧ s.modulesOf plan = .ok modules
      ∧ ∀ header, canvasUnit.bindings uiRules header = .ok ⟨header, modules⟩ := by
  obtain ⟨hbare, s, plan, hs, hp⟩ := canvasUnit_planned
  obtain ⟨modules, hmodules, hbindings⟩ := Scope.bindings_of_plan hbare hs hp
  exact ⟨hbare, s, plan, modules, hs, hp, hmodules, hbindings⟩

end ObjcBindings
