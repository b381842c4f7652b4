/-
  ObjcBindings.Proofs.WrittenTypes
  ────────────────────────────────
  **WHAT A MODULE WRITES CROSSES, AND WHAT IT NAMES IS DECLARED.**

  A module writes the types of its methods' signatures, the fields of its
  structs with a layout, and what its aliases stand for.  Each of these was
  let into the plan by a different test:

      Writes         — the types that a module writes
      Declares       — the names that a module declares
      Resolves       — a name leads to the one module that declares it

    • `crosses_of_writes` — a type that is written crosses and is covered,
    • `resolves_of_placeable` — what a spelling may name is declared.
-/
import ObjcBindings.Proofs.FinishedModules
import ObjcBindings.Proofs.SpelledNames
import Mathlib

namespace ObjcBindings

open Text

/-! ## §1. What a module writes and declares. -/

namespace ModulePlan

/-- The module writes the type. -/
inductive Writes (p : ModulePlan) : TypeExpr → Prop where
  /-- A parameter or a result of a method. -/
  | signature {c : Container} {m : Method} {t : TypeExpr} (container : c ∈ p.containers)
      (method : m ∈ c.methods) (carried : m.Carries t) : Writes p t
  /-- A field of a struct with a layout. -/
  | field {st : StructPlan} {fields : List Decl} {tag : TagKind} {t : TypeExpr}
      (struct : st ∈ p.structs) (representable : st.isRepresentable = true)
      (kind : st.decl.kind = .record fields tag) (inside : t ∈ fieldTypes fields) : Writes p t
  /-- What a typedef stands for. -/
  | target {d : Decl} {t : TypeExpr} (listed : d ∈ p.aliases) (kind : d.kind = .typedef t) :
      Writes p t
  /-- The integer type of an enum. -/
  | integer {d : Decl} {t : TypeExpr} {isClosed : Bool} {enumerators : List Decl}
      (listed : d ∈ p.aliases) (kind : d.kind = .enum (some t) isClosed enumerators) : Writes p t

/-- The module declares the declaration under the name. -/
inductive Declares (s : Scope) (p : ModulePlan) : String → Decl → Prop where
  /-- A typedef that is no idiom and not merged with its tag. -/
  | typedef {d : Decl} {type : TypeExpr} (listed : d ∈ p.aliases) (kind : d.kind = .typedef type)
      (plain : Idiom.detect? d.name type = none) (separate : s.isMerged d.usr = false) :
      Declares s p (Ident.escape d.name) d
  | enum {d : Decl} {integerType : Option TypeExpr} {isClosed : Bool} {enumerators : List Decl}
      (listed : d ∈ p.aliases) (kind : d.kind = .enum integerType isClosed enumerators) :
      Declares s p (s.tagName d) d
  | struct {st : StructPlan} (struct : st ∈ p.structs) : Declares s p (s.tagName st.decl) st.decl
  | interface {c : Container} (interface : c ∈ p.interfaces) :
      Declares s p (Ident.escape c.decl.name) c.decl

end ModulePlan

/-- The name is written as that of a module that declares it, and no other
module declares it. -/
def Plan.Resolves (plan : Plan) (s : Scope) (ident : String) (d : Decl) : Prop :=
  ∃ p ∈ plan.modules, p.Declares s ident d
    ∧ s.moduleOf d = .ok p.name
    ∧ (∀ current, s.qualify ident d current = .ok (qualifyIn p.name ident current))
    ∧ ∀ q ∈ plan.modules, q.Declares s ident d → q = p

/-! ## §2. Signatures. -/

namespace Scope

variable {s : Scope} {plan : Plan} {p : ModulePlan}

/-- An interface is a container. -/
theorem isContainer_of_isInterface {d : Decl} (h : d.isInterface = true) :
    d.isContainer = true := by
  cases hk : d.kind <;> simp_all [Decl.isInterface, Decl.isContainer]

theorem isContainer_of_isProtocol {d : Decl} (h : d.isProtocol = true) :
    d.isContainer = true := by
  cases hk : d.kind <;> simp_all [Decl.isProtocol, Decl.isContainer]

/-- Categories of a class are containers. -/
theorem container_of_categoriesOf {module : String} {cls k : Decl}
    (h : k ∈ s.categoriesOf module cls) :
    k ∈ s.table.definitions ∧ k.isContainer = true := by
  obtain ⟨hk, hcond⟩ := List.mem_filter.1 h
  have hext : s.extended? k = some cls := of_decide_eq_true (Bool.and_eq_true_iff.1 hcond).1
  refine ⟨hk, ?_⟩
  unfold extended? at hext
  split at hext
  · next hkind => simp [Decl.isContainer, hkind]
  · cases hext

/-- The methods of a container are those that can be bound of some defined
containers. -/
theorem sources_of_container (hs : s.WellFormed) (hm : s.Modules plan) (hp : p ∈ plan.modules)
    {c : Container} (hc : c ∈ p.containers) :
    ∃ sources : List Decl, c.methods = sources.flatMap s.bound ∧
      ∀ k ∈ sources, k ∈ s.table.definitions ∧ k.isContainer = true := by
  rcases List.mem_append.1 hc with hc | hc
  · rcases List.mem_append.1 hc with hc | hc
    · obtain ⟨d, hdef, hi, _, he⟩ := forget_of_interface hs hm hp hc
      refine ⟨d :: s.categoriesOf (s.home d) d, congrArg Container.methods he, ?_⟩
      exact List.forall_mem_cons.2
        ⟨⟨hdef, isContainer_of_isInterface hi⟩, fun k hk => container_of_categoriesOf hk⟩
    · obtain ⟨d, hdef, hi, he⟩ := forget_of_protocol hm hp hc
      refine ⟨[d], congrArg Container.methods he, ?_⟩
      exact List.forall_mem_cons.2 ⟨⟨hdef, isContainer_of_isProtocol hi⟩, by simp⟩
  · obtain ⟨cls, _, _, he⟩ := forget_of_category hs hm hp hc
    exact ⟨s.categoriesOf p.name cls, congrArg Container.methods he,
      fun k hk => container_of_categoriesOf hk⟩

/-- What a method of the plan carries crosses, and all it names is in use. -/
theorem crosses_of_signature (hs : s.WellFormed) (hm : s.Modules plan) (hp : p ∈ plan.modules)
    {c : Container} (hc : c ∈ p.containers) {m : Method} (hmethod : m ∈ c.methods)
    {t : TypeExpr} (ht : m.Carries t) :
    s.Crosses .value t ∧ s.used.Covers s.table (.type t) := by
  obtain ⟨sources, hmethods, hsources⟩ := sources_of_container hs hm hp hc
  rw [hmethods] at hmethod
  obtain ⟨k, hk, hbound⟩ := List.mem_flatMap.1 hmethod
  obtain ⟨hdef, hcontainer⟩ := hsources k hk
  obtain ⟨hmk, hbinds⟩ := mem_bound_iff.1 hbound
  exact ⟨hbinds.crosses t ht, Table.covers_signature hs.used hdef hcontainer hmk ht.mem_types⟩

/-! ## §3. Structs and aliases. -/

/-- A struct with a layout is a definition that crosses by value. -/
theorem crosses_of_representable (hm : s.Modules plan) (hp : p ∈ plan.modules)
    {st : StructPlan} (hst : st ∈ p.structs) (hr : st.isRepresentable = true) :
    st.decl ∈ s.table.definitions ∧ st.decl.usr ∈ s.used.structs ∧
      s.Crosses .value (.record st.decl.usr) := by
  rw [(hm.finished p hp).structs, mem_draft_structs] at hst
  rcases hst with ⟨_, ⟨hd, hitem⟩ | ⟨_, hopen⟩⟩
  · obtain ⟨_, hused, hiff⟩ := item?_eq_struct hitem
    exact ⟨hd, hused, hiff.1 hr⟩
  · -- A struct that is only announced has no layout.
    rw [hopen] at hr
    cases hr

/-- A field of a struct with a layout crosses, and all it names is in use. -/
theorem crosses_of_field (hs : s.WellFormed) (hm : s.Modules plan) (hp : p ∈ plan.modules)
    {st : StructPlan} (hst : st ∈ p.structs) (hr : st.isRepresentable = true)
    {fields : List Decl} {tag : TagKind} (hk : st.decl.kind = .record fields tag)
    {t : TypeExpr} (ht : t ∈ fieldTypes fields) :
    s.Crosses .value t ∧ s.used.Covers s.table (.type t) := by
  obtain ⟨hd, hused, hcross⟩ := crosses_of_representable hm hp hst hr
  have hfind := hs.table.find?_of_mem hd
  obtain ⟨htag, _, _, hfields⟩ := (crosses_record_iff (record_eq_ok_iff.2 ⟨hfind, hk⟩)).1 hcross
  refine ⟨hfields t ht, ?_⟩
  have hhas : s.used.Has (.struct st.decl.usr) := hused
  have hopens : Ref.Opens s.table (.struct st.decl.usr) ((fieldTypes fields).map .type) :=
    .struct (Table.find_eq_ok_iff.2 hfind) hk htag
  exact Table.covers_of_opens hs.used hhas (by simp) hopens _ (List.mem_map_of_mem ht)

/-- An alias was placed as one. -/
theorem item?_of_alias (hm : s.Modules plan) (hp : p ∈ plan.modules) {d : Decl}
    (hd : d ∈ p.aliases) : d ∈ s.table.definitions ∧ s.item? d = some (.alias d) := by
  rw [(hm.finished p hp).aliases, mem_draft_aliases] at hd
  exact ⟨hd.1, hd.2.2⟩

/-- A typedef is an alias if it is in use, plain, separate and crosses. -/
theorem item?_typedef_iff {d : Decl} {type : TypeExpr} (hk : d.kind = .typedef type) :
    s.item? d = some (.alias d) ↔
      d.usr ∈ s.used.typedefs ∧ Idiom.detect? d.name type = none ∧ s.isMerged d.usr = false
        ∧ (s.Crosses .value type ∨ s.Crosses .pointee type) := by
  simp only [item?, hk]
  split
  · next h => simp [h]
  · next h => simp [h]

/-- An enum is one if it is in use and crosses. -/
theorem item?_enum_iff {d : Decl} {integerType : Option TypeExpr} {isClosed : Bool}
    {enumerators : List Decl} (hk : d.kind = .enum integerType isClosed enumerators) :
    s.item? d = some (.alias d) ↔
      d.usr ∈ s.used.enums ∧ s.Crosses .value (.enum d.usr) := by
  simp only [item?, hk]
  split
  · next h => simp [h]
  · next h => simp [h]

/-- What an alias stands for crosses in some use. -/
theorem crosses_of_target (hs : s.WellFormed) (hm : s.Modules plan) (hp : p ∈ plan.modules)
    {d : Decl} (hd : d ∈ p.aliases) {t : TypeExpr} (hk : d.kind = .typedef t) :
    (∃ use, s.Crosses use t) ∧ s.used.Covers s.table (.type t) := by
  obtain ⟨hdef, hitem⟩ := item?_of_alias hm hp hd
  obtain ⟨hused, _, _, hcross⟩ := (item?_typedef_iff hk).1 hitem
  constructor
  · rcases hcross with h | h
    · exact ⟨.value, h⟩
    · exact ⟨.pointee, h⟩
  · have hhas : s.used.Has (.typedef d.usr) := hused
    have hopens : Ref.Opens s.table (.typedef d.usr) [.type t] :=
      .typedef (Table.find_eq_ok_iff.2 (hs.table.find?_of_mem hdef)) hk
    exact Table.covers_of_opens hs.used hhas (by simp) hopens _ List.mem_cons_self

/-- The integer type of an enum crosses. -/
theorem crosses_of_integer (hs : s.WellFormed) (hm : s.Modules plan) (hp : p ∈ plan.modules)
    {d : Decl} (hd : d ∈ p.aliases) {t : TypeExpr} {isClosed : Bool} {enumerators : List Decl}
    (hk : d.kind = .enum (some t) isClosed enumerators) :
    s.Crosses .value t ∧ s.used.Covers s.table (.type t) := by
  obtain ⟨hdef, hitem⟩ := item?_of_alias hm hp hd
  obtain ⟨hused, hcross⟩ := (item?_enum_iff hk).1 hitem
  have hfind := hs.table.find?_of_mem hdef
  constructor
  · -- The enum crosses only because its integer type does.
    cases hcross with
    | enum found below =>
        obtain ⟨hf, _, hkind⟩ := enum_eq_ok_iff.1 found
        rw [hfind] at hf
        cases hf
        rw [hk] at hkind
        cases hkind
        exact below
  · have hhas : s.used.Has (.enum d.usr) := hused
    have hopens : Ref.Opens s.table (.enum d.usr) [.type t] :=
      .enum (Table.find_eq_ok_iff.2 hfind) hk
    exact Table.covers_of_opens hs.used hhas (by simp) hopens _ List.mem_cons_self

/-- **A type that a module writes crosses, and all it names is in use.** -/
theorem crosses_of_writes (hs : s.WellFormed) (hm : s.Modules plan) (hp : p ∈ plan.modules)
    {t : TypeExpr} (h : p.Writes t) :
    (∃ use, s.Crosses use t) ∧ s.used.Covers s.table (.type t) := by
  cases h with
  | signature container method carried =>
      obtain ⟨hc, hcovers⟩ := crosses_of_signature hs hm hp container method carried
      exact ⟨⟨.value, hc⟩, hcovers⟩
  | field struct representable kind inside =>
      obtain ⟨hc, hcovers⟩ := crosses_of_field hs hm hp struct representable kind inside
      exact ⟨⟨.value, hc⟩, hcovers⟩
  | target listed kind => exact crosses_of_target hs hm hp listed kind
  | integer listed kind =>
      obtain ⟨hc, hcovers⟩ := crosses_of_integer hs hm hp listed kind
      exact ⟨⟨.value, hc⟩, hcovers⟩

/-! ## §4. Names. -/

/-- What a module declares has that module as its home. -/
theorem home_of_declares (hs : s.WellFormed) (hm : s.Modules plan) (hp : p ∈ plan.modules)
    {ident : String} {d : Decl} (h : p.Declares s ident d) : s.home d = p.name := by
  cases h with
  | typedef listed _ _ _ =>
      rw [(hm.finished p hp).aliases, mem_draft_aliases] at listed
      exact listed.2.1
  | enum listed _ =>
      rw [(hm.finished p hp).aliases, mem_draft_aliases] at listed
      exact listed.2.1
  | struct listed =>
      rw [(hm.finished p hp).structs, mem_draft_structs] at listed
      exact listed.1
  | @interface c listed =>
      obtain ⟨d, _, _, hhome, he⟩ := forget_of_interface hs hm hp listed
      have hdecl : c.decl = d := congrArg Container.decl he
      rw [hdecl]
      exact hhome

/-- Two modules of one name are one. -/
theorem Modules.eq_of_name_eq (hm : s.Modules plan) {q : ModulePlan} (hp : p ∈ plan.modules)
    (hq : q ∈ plan.modules) (h : q.name = p.name) : q = p :=
  List.inj_on_of_nodup_map hm.nodup_names hq hp h

/-- A name resolves if the module at home declares it. -/
theorem resolves_of_declares (hs : s.WellFormed) (hm : s.Modules plan) {ident : String}
    {d : Decl} (hmodule : s.moduleOf d = .ok (s.home d)) (hp : p ∈ plan.modules)
    (h : p.Declares s ident d) : plan.Resolves s ident d := by
  have hhome := home_of_declares hs hm hp h
  rw [hhome] at hmodule
  refine ⟨p, hp, h, hmodule, fun current => ?_, fun q hq hdeclares => ?_⟩
  · rw [qualify, hmodule]
  · exact hm.eq_of_name_eq hp hq ((home_of_declares hs hm hq hdeclares).symm.trans hhome)

/-- An alias is declared at home. -/
theorem mem_aliases_of_item (hm : s.Modules plan) {d : Decl} (hd : d ∈ s.table.definitions)
    (hitem : s.item? d = some (.alias d)) :
    ∃ p ∈ plan.modules, d ∈ p.aliases := by
  obtain ⟨p, hp, hname⟩ := hm.exists_of_mem (home_mem_of_item hd (by simp [hitem]))
  refine ⟨p, hp, ?_⟩
  rw [(hm.finished p hp).aliases, mem_draft_aliases]
  exact ⟨hd, hname.symm, hitem⟩

/-- A record in use becomes a struct. -/
theorem item?_record {d : Decl} {fields : List Decl} {tag : TagKind}
    (hk : d.kind = .record fields tag) (hused : d.usr ∈ s.used.structs) :
    ∃ st, s.item? d = some (.struct st) := by
  simp only [item?, hk, if_pos hused]
  exact ⟨_, rfl⟩

/-- A struct in use is declared at home, whether it is defined or only
announced. -/
theorem mem_structs_of_used (hs : s.WellFormed) (hplan : s.plan = .ok plan) {d : Decl}
    {fields : List Decl} {tag : TagKind} (found : s.table.find? d.usr = some d)
    (hk : d.kind = .record fields tag) (hused : d.usr ∈ s.used.structs) :
    s.moduleOf d = .ok (s.home d) ∧ ∃ p ∈ plan.modules, ∃ st ∈ p.structs, st.decl = d := by
  have hm := modules_of_plan hs hplan
  obtain ⟨homes, _⟩ := plan_eq_ok hs hplan
  -- The first pass places definitions, the second what has none.
  rcases Table.mem_of_find? found with hd | ⟨_, hundefined⟩
  · obtain ⟨st, hitem⟩ := item?_record hk hused
    obtain ⟨hdecl, _⟩ := item?_eq_struct hitem
    obtain ⟨p, hp, hname⟩ := hm.exists_of_mem (home_mem_of_item hd (by simp [hitem]))
    refine ⟨homes.items d hd (by simp [hitem]), p, hp, st, ?_, hdecl⟩
    rw [(hm.finished p hp).structs, mem_draft_structs, hdecl]
    exact ⟨hname.symm, .inl ⟨hd, hitem⟩⟩
  · have hstub : s.stub? d.usr = some d := by
      rw [stub?, if_neg (by simp [hundefined]), found]
    have hannounced : d ∈ s.announced := List.mem_filterMap.2 ⟨d.usr, hused, hstub⟩
    obtain ⟨p, hp, hname⟩ := hm.exists_of_mem (home_mem_of_announced hannounced)
    refine ⟨homes.announced d hannounced, p, hp, ⟨d, false⟩, ?_, rfl⟩
    rw [(hm.finished p hp).structs, mem_draft_structs]
    exact ⟨hname.symm, .inr ⟨hannounced, rfl⟩⟩

/-- An interface is declared at home. -/
theorem mem_interfaces_of_defined (hs : s.WellFormed) (hm : s.Modules plan) {d : Decl}
    (hd : d ∈ s.table.definitions) (hi : d.isInterface = true) :
    ∃ p ∈ plan.modules, p.name = s.home d ∧ ∃ c ∈ p.interfaces, c.decl = d
      ∧ c.kind = .interface := by
  obtain ⟨p, hp, hname⟩ := hm.exists_of_mem (home_mem_of_item hd (item?_of_isInterface hi))
  refine ⟨p, hp, hname, s.supertraits.finishInterface (s.interfaceContainer d), ?_, rfl, rfl⟩
  rw [(hm.finished p hp).interfaces, draft_interfaces hs]
  exact List.mem_map_of_mem (List.mem_map_of_mem (List.mem_filter.2 ⟨hd, by simp [hi, hname]⟩))

/-- **What a spelling may name is declared, in the module that it is written
with.** -/
theorem resolves_of_placeable (hs : s.WellFormed) (hplan : s.plan = .ok plan) {ident : String}
    {d : Decl} (h : s.Placeable ident d) : plan.Resolves s ident d := by
  have hm := modules_of_plan hs hplan
  obtain ⟨homes, _⟩ := plan_eq_ok hs hplan
  cases h with
  | @typedef d type use defined kind used plain separate crosses =>
      -- The spelling crossed in one use; the plan asks for either.
      have hcross : s.Crosses .value type ∨ s.Crosses .pointee type := by
        cases use with
        | value => exact .inl crosses
        | pointee => exact .inr crosses
      have hitem := (item?_typedef_iff kind).2 ⟨used, plain, separate, hcross⟩
      obtain ⟨p, hp, listed⟩ := mem_aliases_of_item hm defined hitem
      exact resolves_of_declares hs hm (homes.items d defined (by simp [hitem])) hp
        (.typedef listed kind plain separate)
  | struct found kind used =>
      obtain ⟨hmodule, p, hp, st, hst, rfl⟩ := mem_structs_of_used hs hplan found kind used
      exact resolves_of_declares hs hm hmodule hp (.struct hst)
  | enum defined kind used crosses =>
      have hitem := (item?_enum_iff kind).2 ⟨used, crosses⟩
      obtain ⟨p, hp, listed⟩ := mem_aliases_of_item hm defined hitem
      exact resolves_of_declares hs hm (homes.items d defined (by simp [hitem])) hp
        (.enum listed kind)
  | interface defined kind =>
      obtain ⟨p, hp, _, c, hc, rfl, _⟩ := mem_interfaces_of_defined hs hm defined kind
      exact resolves_of_declares hs hm (homes.items _ defined (item?_of_isInterface kind)) hp
        (.interface hc)

end Scope

/-! ## §5. A small unit. -/

/-- Types of every kind in use by a class and a category of another module: a
merged typedef, a typedef that only stands behind a pointer, a struct that is
only announced, an enum with a typedef as its integer type. -/
def canvasUnit : TranslationUnit where
  children :=
    [{ usr := "s:Ctx", name := "Ctx", location := none, isImplicit := true
       isReferenced := false, isForward := true, kind := .record [] .struct },
     .implicit "t:Ref" "Ref" (.typedef (.pointer (.record "s:Ctx"))),
     .implicit "t:Word" "Word" (.typedef (.builtin "UInt")),
     .implicit "s:Size" "_Size" (.record
       [.implicit "w" "w" (.field (.ofName "Word") none)] .struct),
     .implicit "t:Size" "Size" (.typedef (.record "s:Size")),
     .inFile "ui.h" "e:Mode" "Mode" (.enum (some (.ofName "Word")) false
       [.implicit "Plain" "Plain" (.enumConstant (some "0"))]),
     .implicit "c:Canvas" "Canvas" (.interface
       [.ofMethod "fit:" [.ofName "Size"]
         (.objectPointer (.object none (some "c:Canvas") [] []))] [] none []),
     .inFile "ui.h" "k:Draw" "Draw" (.category "Canvas"
       [.ofMethod "draw:mode:" [.pointer (.ofName "Ref"), .enum "e:Mode"]
         (.builtin "Void")] [])]

/-- The forward declaration of the unit only announces, and the unit has a
plan. -/
theorem canvasUnit_planned :
    canvasUnit.HasBareForwards ∧
      ∃ s plan, Scope.ofUnit canvasUnit uiRules = .ok s ∧ s.plan = .ok plan := by
  constructor
  · show ∀ d ∈ canvasUnit.children, d.isForward = true → d.isBare = true
    decide
  · exact Scope.exists_plan_of_isOk (by cbv)

end ObjcBindings
