/-
  ObjcBindings.Proofs.Placement
  ────────────────────────────────
  **WHERE A PLAN PUTS EACH DECLARATION, SAID WITHOUT A MEMORY.**

  A plan is made in passes that hand a memory of answers from one definition
  to the next.  The answers are exact, so what a pass does with a definition
  depends on the definition alone:

      containerOf   — the container of some declarations, merged in order
      item?         — what a definition becomes
      placement?    — where a definition is put
      stub?         — the struct that a USR in use is only announced as
      extended?     — the class that a category extends

  `plan_eq_ok` says that a plan that succeeds is made from these, and that
  every declaration that is put anywhere has a module.
-/
import ObjcBindings.Bindings.Plan
import ObjcBindings.Proofs.RememberedAnswers
import ObjcBindings.Proofs.ScopeContents

namespace ObjcBindings

/-! ## §1. First occurrences. -/

/-- The first declaration of each USR, in order. -/
def firstOfUsr (ds : List Decl) : List Decl :=
  ds.eraseDupsBy fun p q => p.usr == q.usr

/-- A declaration of a USR that is there already is not added. -/
theorem addProtocol_of_any {acc : List Decl} {p : Decl}
    (h : acc.any (·.usr == p.usr) = true) : addProtocol acc p = acc := by
  rw [addProtocol, if_pos h]

/-- One of a new USR is added at the end. -/
theorem addProtocol_of_not_any {acc : List Decl} {p : Decl}
    (h : ¬ acc.any (·.usr == p.usr) = true) : addProtocol acc p = acc ++ [p] := by
  rw [addProtocol, if_neg h]

/-- Adding declarations in order adds the first of each USR that is new. -/
theorem foldl_addProtocol (ps : List Decl) (acc : List Decl) :
    ps.foldl addProtocol acc
      = acc ++ firstOfUsr (ps.filter fun p => !acc.any (·.usr == p.usr)) := by
  induction ps generalizing acc with
  | nil => simp [firstOfUsr]
  | cons p ps ih =>
      rw [List.foldl_cons, ih]
      by_cases h : acc.any (·.usr == p.usr) = true
      · rw [addProtocol_of_any h, List.filter_cons_of_neg (by simp [h])]
      · rw [addProtocol_of_not_any h, List.filter_cons_of_pos (by simp [h]), firstOfUsr,
          firstOfUsr, List.eraseDupsBy_cons, List.filter_filter, List.append_assoc,
          List.singleton_append]
        congr 4
        funext q
        simp [Bool.and_comm, beq_eq_decide, eq_comm (a := p.usr)]

/-- Started from nothing, the first of each USR is there. -/
theorem foldl_addProtocol_nil (ps : List Decl) : ps.foldl addProtocol [] = firstOfUsr ps := by
  rw [foldl_addProtocol, List.nil_append]
  simp

/-- A USR that was added stays. -/
theorem any_foldl_addProtocol {usr : Usr} (ps : List Decl) {acc : List Decl}
    (h : acc.any (·.usr == usr) = true ∨ ps.any (·.usr == usr) = true) :
    (ps.foldl addProtocol acc).any (·.usr == usr) = true := by
  induction ps generalizing acc with
  | nil => simpa using h
  | cons p ps ih =>
      rw [List.foldl_cons]
      apply ih
      by_cases hp : acc.any (·.usr == p.usr) = true
      · rw [addProtocol_of_any hp]
        grind
      · rw [addProtocol_of_not_any hp]
        grind

/-- Nothing else is added. -/
theorem mem_of_mem_foldl_addProtocol {d : Decl} (ps : List Decl) {acc : List Decl}
    (h : d ∈ ps.foldl addProtocol acc) : d ∈ acc ∨ d ∈ ps := by
  induction ps generalizing acc with
  | nil => exact .inl h
  | cons p ps ih =>
      rcases ih h with hacc | hps
      · by_cases hp : acc.any (·.usr == p.usr) = true
        · rw [addProtocol_of_any hp] at hacc
          exact .inl hacc
        · rw [addProtocol_of_not_any hp] at hacc
          rcases List.mem_append.1 hacc with hacc | hd
          · exact .inl hacc
          · exact .inr (List.mem_singleton.1 hd ▸ List.mem_cons_self)
      · exact .inr (List.mem_cons_of_mem p hps)

/-- The first declarations of their USRs are among the declarations. -/
theorem mem_of_mem_firstOfUsr {d : Decl} {ds : List Decl} (h : d ∈ firstOfUsr ds) : d ∈ ds := by
  rw [← foldl_addProtocol_nil] at h
  exact (mem_of_mem_foldl_addProtocol ds h).resolve_left List.not_mem_nil

/-- Every USR has its first declaration. -/
theorem exists_mem_firstOfUsr {d : Decl} {ds : List Decl} (h : d ∈ ds) :
    ∃ x ∈ firstOfUsr ds, x.usr = d.usr := by
  have hany : ds.any (·.usr == d.usr) = true := List.any_eq_true.2 ⟨d, h, beq_self_eq_true _⟩
  have hfirst := any_foldl_addProtocol ds (.inr hany : ([] : List Decl).any _ = true ∨ _)
  rw [foldl_addProtocol_nil, List.any_eq_true] at hfirst
  obtain ⟨x, hx, husr⟩ := hfirst
  exact ⟨x, hx, beq_iff_eq.1 husr⟩

/-- Adding what was gathered is adding what it was gathered from. -/
theorem foldl_addProtocol_foldl (ps gathered acc : List Decl) :
    (ps.foldl addProtocol gathered).foldl addProtocol acc
      = ps.foldl addProtocol (gathered.foldl addProtocol acc) := by
  induction ps generalizing gathered with
  | nil => rfl
  | cons p ps ih =>
      rw [List.foldl_cons, List.foldl_cons, ih]
      congr 1
      by_cases h : gathered.any (·.usr == p.usr) = true
      · rw [addProtocol_of_any h, addProtocol_of_any (any_foldl_addProtocol gathered (.inr h))]
      · rw [addProtocol_of_not_any h, List.foldl_append]
        rfl

/-! ## §2. Containers. -/

namespace Scope

open Classical in
/-- The methods of a declaration that can be bound, in order. -/
noncomputable def bound (s : Scope) (d : Decl) : List Method :=
  d.methods.filter fun m => decide (s.Binds m)

/-- The methods that can be bound, by membership. -/
theorem mem_bound_iff {s : Scope} {d : Decl} {m : Method} :
    m ∈ s.bound d ↔ m ∈ d.methods ∧ s.Binds m := by
  simp [bound]

/-- The definition of the protocol of a name. -/
def definedProtocol? (s : Scope) (name : String) : Option Decl :=
  (s.table.protocolNamed? name).bind fun p => s.table.definition? p.usr

/-- The defined protocols that a declaration names, in order. -/
def adopted (s : Scope) (d : Decl) : List Decl :=
  d.protocols.filterMap s.definedProtocol?

/-- The container of `target` with the methods and protocols of `sources`,
merged in order. -/
noncomputable def containerOf (s : Scope) (kind : ContainerKind) (target : Decl)
    (ownerModule : String) (superclass : Option Decl) (sources : List Decl) : Container :=
  { kind, decl := target, ownerModule, superclass
    methods := sources.flatMap s.bound
    protocols := firstOfUsr (sources.flatMap s.adopted) }

variable {s : Scope} {m m' : Memory}

open Classical in
/-- **A pass over methods keeps exactly those that can be bound.** -/
theorem boundMethods_exact :
    ∀ {methods kept : List Method} {m m' : Memory}, m.Sound s [] →
      s.boundMethods methods m = .ok (kept, m') →
      kept = methods.filter (fun x => decide (s.Binds x)) ∧ m'.Sound s []
  | [], _, _, _, hm, h => by
      cases h
      exact ⟨rfl, hm⟩
  | method :: methods, _, _, _, hm, h => by
      unfold boundMethods at h
      split at h
      · cases h
      · next answer m₁ hfits =>
        obtain ⟨hanswer, hm₁⟩ := (methodFits_just _ hm).exact hfits
        split at h
        · cases h
        · next rest m₂ hrest =>
          obtain ⟨rfl, hm₂⟩ := boundMethods_exact hm₁ hrest
          cases h
          refine ⟨?_, hm₂⟩
          -- The answer is exact, so it keeps the method as the filter does.
          by_cases hb : s.Binds method
          · rw [if_pos (hanswer.2 hb), List.filter_cons_of_pos (by simpa using hb)]
          · rw [if_neg (fun ha => hb (hanswer.1 ha)), List.filter_cons_of_neg (by simpa using hb)]

/-- A protocol that has to exist and is found is that of its name. -/
theorem protocolNamed_eq_ok {name : String} {p : Decl}
    (h : s.table.protocolNamed name = .ok p) : s.table.protocolNamed? name = some p := by
  unfold Table.protocolNamed at h
  split at h
  · next hp =>
    cases h
    exact hp
  · cases h

/-- **A pass over names gathers exactly the protocols that are defined.** -/
theorem definedProtocols_exact :
    ∀ {names : List String} {found ps : List Decl},
      s.definedProtocols found names = .ok ps →
      ps = (names.filterMap s.definedProtocol?).foldl addProtocol found
  | [], _, _, h => by
      cases h
      rfl
  | name :: names, found, ps, h => by
      unfold definedProtocols at h
      split at h
      · cases h
      · next p hp =>
        have hname : s.definedProtocol? name = s.table.definition? p.usr := by
          rw [definedProtocol?, protocolNamed_eq_ok hp, Option.bind_some]
        split at h
        · next d hd =>
          rw [definedProtocols_exact h, List.filterMap_cons_some (hname.trans hd),
            List.foldl_cons]
        · next hd =>
          rw [definedProtocols_exact h, List.filterMap_cons_none (hname.trans hd)]

/-- **A container is made from its declaration alone**, whatever was asked
before. -/
theorem container_exact {kind : ContainerKind} {source target : Decl} {module : String}
    {superclass : Option Decl} {c : Container} (hm : m.Sound s [])
    (h : s.container kind source target module superclass m = .ok (c, m')) :
    c = s.containerOf kind target module superclass [source] ∧ m'.Sound s [] := by
  unfold container at h
  split at h
  · cases h
  · next methods m₁ hmethods =>
    obtain ⟨rfl, hm₁⟩ := boundMethods_exact hm hmethods
    split at h
    · cases h
    · next protocols hprotocols =>
      cases h
      refine ⟨?_, hm₁⟩
      rw [definedProtocols_exact hprotocols, foldl_addProtocol_nil]
      simp [containerOf, bound, adopted]

/-- A container takes in one more declaration at the end. -/
theorem absorb_containerOf (s : Scope) (kind kind' : ContainerKind) (target target' d : Decl)
    (module module' : String) (superclass superclass' : Option Decl) (sources : List Decl) :
    (s.containerOf kind target module superclass sources).absorb
        (s.containerOf kind' target' module' superclass' [d])
      = s.containerOf kind target module superclass (sources ++ [d]) := by
  unfold Container.absorb containerOf
  simp only [List.flatMap_append, ← foldl_addProtocol_nil, foldl_addProtocol_foldl,
    List.foldl_append, List.foldl_nil]

/-! ## §3. Definitions. -/

/-- The module of a declaration; one that has none is never put anywhere. -/
def home (s : Scope) (d : Decl) : String :=
  match s.moduleOf d with
  | .ok module => module
  | .error _ => coreModule

/-- The module that a declaration is assigned is its home. -/
theorem home_of_moduleOf {d : Decl} {module : String} (h : s.moduleOf d = .ok module) :
    s.home d = module := by
  rw [home, h]

open Classical in
/-- What a definition becomes. -/
noncomputable def item? (s : Scope) (d : Decl) : Option PlanItem :=
  match d.kind with
  | .interface _ _ superclass _ =>
      some (.interface (s.containerOf .interface d (s.home d)
        (superclass.bind s.definedInterface?) [d]))
  | .protocol _ _ => some (.protocol (s.containerOf .protocol d (s.home d) none [d]))
  | .typedef type =>
      if d.usr ∈ s.used.typedefs ∧ Idiom.detect? d.name type = none ∧ s.isMerged d.usr = false
          ∧ (s.Crosses .value type ∨ s.Crosses .pointee type)
      then some (.alias d) else none
  | .record _ _ =>
      if d.usr ∈ s.used.structs
      then some (.struct ⟨d, decide (s.Crosses .value (.record d.usr))⟩) else none
  | .enum _ _ _ =>
      if d.usr ∈ s.used.enums ∧ s.Crosses .value (.enum d.usr) then some (.alias d) else none
  | _ => none

/-- Where a definition is put, and as what. -/
noncomputable def placement? (s : Scope) (d : Decl) : Option Placed :=
  (s.item? d).map (⟨s.home d, ·⟩)

/-- A verdict goes on exactly if it is an answer. -/
theorem orFail_eq_ok_iff {v : Verdict} {b : Bool} :
    Verdict.orFail v = .ok (b, m) ↔ v = (.ok b, m) := by
  obtain ⟨answer, m₁⟩ := v
  cases answer with
  | error e => simp [Verdict.orFail]
  | ok b₁ => simp [Verdict.orFail]

/-- The superclass of a container is the one that is defined. -/
theorem superclassOf_eq_ok {superclass : Option Usr} {above : Option Decl}
    (h : s.superclassOf superclass = .ok above) :
    above = superclass.bind s.definedInterface? := by
  cases superclass with
  | none =>
      cases h
      rfl
  | some usr =>
      unfold superclassOf superclass at h
      grind

/-- What becomes nothing is put nowhere. -/
theorem placement?_of_none {d : Decl} (h : s.item? d = none) : s.placement? d = none := by
  rw [placement?, h, Option.map_none]

/-- What becomes something is put into its module. -/
theorem placement?_of_some {d : Decl} {item : PlanItem} {module : String}
    (h : s.item? d = some item) (hmodule : s.moduleOf d = .ok module) :
    s.placement? d = some ⟨module, item⟩ := by
  rw [placement?, h, Option.map_some, home_of_moduleOf hmodule]

/-- A definition is put where it belongs, and has a module if it is put
anywhere. -/
def IsPlacedAs (s : Scope) (d : Decl) (p : Option Placed) : Prop :=
  p = s.placement? d ∧ (p.isSome → s.moduleOf d = .ok (s.home d))

/-- What has no item is placed nowhere. -/
theorem isPlacedAs_none {d : Decl} (h : s.item? d = none) : s.IsPlacedAs d none :=
  ⟨(placement?_of_none h).symm, by simp⟩

/-- What has an item is placed in its module. -/
theorem isPlacedAs_some {d : Decl} {item : PlanItem} {module : String}
    (h : s.item? d = some item) (hmodule : s.moduleOf d = .ok module) :
    s.IsPlacedAs d (some ⟨module, item⟩) :=
  ⟨(placement?_of_some h hmodule).symm, fun _ => home_of_moduleOf hmodule ▸ hmodule⟩

section Place

variable {d : Decl} {p : Option Placed}

/-- An interface is placed as it should be. -/
theorem place_interface {children : List Decl} {protocols typeParams : List String}
    {superclass : Option Usr} (hk : d.kind = .interface children protocols superclass typeParams)
    (hm : m.Sound s []) (h : s.place d m = .ok (p, m')) : s.IsPlacedAs d p ∧ m'.Sound s [] := by
  simp only [place, hk] at h
  obtain ⟨module, hmodule, h⟩ := bind_eq_ok_iff.1 h
  obtain ⟨above, habove, h⟩ := bind_eq_ok_iff.1 h
  obtain ⟨⟨c, m₁⟩, hc, h⟩ := bind_eq_ok_iff.1 h
  obtain ⟨rfl, hm₁⟩ := container_exact hm hc
  cases h
  refine ⟨isPlacedAs_some ?_ hmodule, hm₁⟩
  rw [item?, hk, home_of_moduleOf hmodule, superclassOf_eq_ok habove]

theorem place_protocol {children : List Decl} {protocols : List String}
    (hk : d.kind = .protocol children protocols) (hm : m.Sound s [])
    (h : s.place d m = .ok (p, m')) : s.IsPlacedAs d p ∧ m'.Sound s [] := by
  simp only [place, hk] at h
  obtain ⟨module, hmodule, h⟩ := bind_eq_ok_iff.1 h
  obtain ⟨⟨c, m₁⟩, hc, h⟩ := bind_eq_ok_iff.1 h
  obtain ⟨rfl, hm₁⟩ := container_exact hm hc
  cases h
  refine ⟨isPlacedAs_some ?_ hmodule, hm₁⟩
  rw [item?, hk, home_of_moduleOf hmodule]

theorem place_typedef {type : TypeExpr} (hs : s.WellFormed) (hd : d ∈ s.table.definitions)
    (hk : d.kind = .typedef type) (hm : m.Sound s []) (h : s.place d m = .ok (p, m')) :
    s.IsPlacedAs d p ∧ m'.Sound s [] := by
  have found : s.typedef d.usr = .ok (d, type) :=
    typedef_eq_ok_iff.2 ⟨hs.table.find?_of_mem hd, hk⟩
  simp only [place, hk] at h
  split at h
  · next hno =>
    -- Not used, an idiom, or merged: nothing is asked about its type.
    cases h
    refine ⟨isPlacedAs_none ?_, hm⟩
    rw [item?, hk]
    exact if_neg fun ⟨hused, hplain, hseparate, _⟩ => by simp [hused, hplain, hseparate] at hno
  · next hyes =>
    have hwritten : d.usr ∈ s.used.typedefs ∧ Idiom.detect? d.name type = none
        ∧ s.isMerged d.usr = false := by simpa [and_assoc] using hyes
    obtain ⟨hused, hplain, hseparate⟩ := hwritten
    obtain ⟨⟨answer, m₁⟩, hanswer, h⟩ := bind_eq_ok_iff.1 h
    obtain ⟨hiff, hm₁⟩ := (typedefFits_just found hm).exact (orFail_eq_ok_iff.1 hanswer)
    cases answer with
    | true =>
        obtain ⟨module, hmodule, h⟩ := bind_eq_ok_iff.1 h
        cases h
        refine ⟨isPlacedAs_some ?_ hmodule, hm₁⟩
        rw [item?, hk]
        exact if_pos ⟨hused, hplain, hseparate, hiff.1 rfl⟩
    | false =>
        cases h
        refine ⟨isPlacedAs_none ?_, hm₁⟩
        rw [item?, hk]
        exact if_neg fun hall => Bool.false_ne_true (hiff.2 hall.2.2.2)

open Classical in
theorem place_record {fields : List Decl} {tag : TagKind} (hk : d.kind = .record fields tag)
    (hm : m.Sound s []) (h : s.place d m = .ok (p, m')) : s.IsPlacedAs d p ∧ m'.Sound s [] := by
  simp only [place, hk] at h
  split at h
  · next hno =>
    cases h
    refine ⟨isPlacedAs_none ?_, hm⟩
    rw [item?, hk]
    exact if_neg hno
  · next hused =>
    obtain ⟨⟨answer, m₁⟩, hanswer, h⟩ := bind_eq_ok_iff.1 h
    obtain ⟨hiff, hm₁⟩ := (typeFits_just hm).exact (orFail_eq_ok_iff.1 hanswer)
    obtain ⟨module, hmodule, h⟩ := bind_eq_ok_iff.1 h
    cases h
    refine ⟨isPlacedAs_some ?_ hmodule, hm₁⟩
    -- The answer does not decide whether the struct is planned, but how.
    have hcrosses : decide (s.Crosses .value (.record d.usr)) = answer := by
      rw [Bool.eq_iff_iff, decide_eq_true_iff, hiff]
    rw [item?, hk, hcrosses]
    exact if_pos (not_not.1 hused)

theorem place_enum {integerType : Option TypeExpr} {isClosed : Bool} {enumerators : List Decl}
    (hk : d.kind = .enum integerType isClosed enumerators) (hm : m.Sound s [])
    (h : s.place d m = .ok (p, m')) : s.IsPlacedAs d p ∧ m'.Sound s [] := by
  simp only [place, hk] at h
  split at h
  · next hno =>
    cases h
    refine ⟨isPlacedAs_none ?_, hm⟩
    rw [item?, hk]
    exact if_neg fun hall => hno hall.1
  · next hused =>
    obtain ⟨⟨answer, m₁⟩, hanswer, h⟩ := bind_eq_ok_iff.1 h
    obtain ⟨hiff, hm₁⟩ := (typeFits_just hm).exact (orFail_eq_ok_iff.1 hanswer)
    cases answer with
    | true =>
        obtain ⟨module, hmodule, h⟩ := bind_eq_ok_iff.1 h
        cases h
        refine ⟨isPlacedAs_some ?_ hmodule, hm₁⟩
        rw [item?, hk]
        exact if_pos ⟨not_not.1 hused, hiff.1 rfl⟩
    | false =>
        cases h
        refine ⟨isPlacedAs_none ?_, hm₁⟩
        rw [item?, hk]
        exact if_neg fun hall => Bool.false_ne_true (hiff.2 hall.2)

/-- **What happens to a definition depends on it alone**, whatever was asked
before. -/
theorem place_exact (hs : s.WellFormed) (hd : d ∈ s.table.definitions) (hm : m.Sound s [])
    (h : s.place d m = .ok (p, m')) : s.IsPlacedAs d p ∧ m'.Sound s [] := by
  cases hk : d.kind with
  | interface _ _ _ _ => exact place_interface hk hm h
  | protocol _ _ => exact place_protocol hk hm h
  | typedef _ => exact place_typedef hs hd hk hm h
  | record _ _ => exact place_record hk hm h
  | enum _ _ _ => exact place_enum hk hm h
  | category _ _ _ | method _ | property _ | ivar _ | field _ _ | enumConstant _
  | function _ _ _ _ | var _ =>
      simp only [place, hk] at h
      cases h
      exact ⟨isPlacedAs_none (by rw [item?, hk]), hm⟩

/-- All definitions of a list are put where they belong. -/
theorem placeAll_exact (hs : s.WellFormed) :
    ∀ {ds : List Decl} {placed : List Placed} {m m' : Memory},
      (∀ d ∈ ds, d ∈ s.table.definitions) → m.Sound s [] →
      s.placeAll ds m = .ok (placed, m') →
      placed = ds.filterMap s.placement? ∧
        (∀ d ∈ ds, (s.item? d).isSome → s.moduleOf d = .ok (s.home d)) ∧ m'.Sound s []
  | [], _, _, _, _, hm, h => by
      cases h
      exact ⟨rfl, by simp, hm⟩
  | d :: ds, _, _, _, hds, hm, h => by
      unfold placeAll at h
      split at h
      · cases h
      · next p m₁ hp =>
        obtain ⟨⟨rfl, hmodule⟩, hm₁⟩ := place_exact hs (hds d List.mem_cons_self) hm hp
        split at h
        · cases h
        · next rest m₂ hrest =>
          obtain ⟨rfl, hmodules, hm₂⟩ :=
            placeAll_exact hs (fun x hx => hds x (List.mem_cons_of_mem d hx)) hm₁ hrest
          cases h
          -- The first definition adds its placement in front, if it has one.
          refine ⟨?_, List.forall_mem_cons.2 ⟨fun hsome => hmodule ?_, hmodules⟩, hm₂⟩
          · rw [List.filterMap_cons]
            cases s.placement? d <;> rfl
          · rw [placement?, Option.isSome_map]
            exact hsome

end Place

/-! ## §4. Stubs and categories. -/

/-- The stub of a USR that has no definition. -/
def stub? (s : Scope) (usr : Usr) : Option Decl :=
  if s.table.isDefined usr then none else s.table.find? usr

/-- The structs in use that are only announced. -/
def announced (s : Scope) : List Decl :=
  s.used.structs.filterMap s.stub?

/-- A struct without its layout, in its module. -/
def announcedPlacement (s : Scope) (d : Decl) : Placed :=
  ⟨s.home d, .struct ⟨d, false⟩⟩

/-- **The structs that are only announced are placed exactly**, each at home. -/
theorem placeStubs_exact :
    ∀ {usrs : List Usr} {placed : List Placed}, s.placeStubs usrs = .ok placed →
      placed = (usrs.filterMap s.stub?).map s.announcedPlacement ∧
        ∀ d ∈ usrs.filterMap s.stub?, s.moduleOf d = .ok (s.home d)
  | [], _, h => by
      cases h
      exact ⟨rfl, by simp⟩
  | usr :: usrs, _, h => by
      unfold placeStubs at h
      split at h
      · next hdef =>
        -- Structs with a definition were placed before.
        have hstub : s.stub? usr = none := by rw [stub?, if_pos hdef]
        rw [List.filterMap_cons_none hstub]
        exact placeStubs_exact h
      · next hdef =>
        obtain ⟨d, hd, h⟩ := bind_eq_ok_iff.1 h
        obtain ⟨module, hmodule, h⟩ := bind_eq_ok_iff.1 h
        obtain ⟨rest, hrest, h⟩ := bind_eq_ok_iff.1 h
        obtain ⟨rfl, hmodules⟩ := placeStubs_exact hrest
        cases h
        have hstub : s.stub? usr = some d := by
          rw [stub?, if_neg hdef, Table.find_eq_ok_iff.1 hd]
        have hhome := home_of_moduleOf hmodule
        rw [List.filterMap_cons_some hstub]
        refine ⟨?_, List.forall_mem_cons.2 ⟨hhome ▸ hmodule, hmodules⟩⟩
        rw [List.map_cons, announcedPlacement, hhome]

/-- The definition of the class that a category extends. -/
def extended? (s : Scope) (d : Decl) : Option Decl :=
  match d.kind with
  | .category className _ _ =>
      (s.table.interfaceNamed? className).bind fun named => s.definedInterface? named.usr
  | _ => none

/-- Where a category is put, and its container before it is merged. -/
noncomputable def categoryPlacement? (s : Scope) (d : Decl) : Option PlacedCategory :=
  (s.extended? d).map fun cls =>
    ⟨s.home d, s.containerOf .category cls (s.home cls) none [d]⟩

/-- An interface that has to exist and is found is that of its name. -/
theorem interfaceNamed_eq_ok {name : String} {d : Decl}
    (h : s.table.interfaceNamed name = .ok d) : s.table.interfaceNamed? name = some d := by
  unfold Table.interfaceNamed at h
  split at h
  · next hd =>
    cases h
    exact hd
  · cases h

/-- A category is placed with the class that it extends, if that is defined. -/
theorem placeCategory_exact {d : Decl} {className : String} {children : List Decl}
    {protocols : List String} {p : Option PlacedCategory}
    (hk : d.kind = .category className children protocols) (hm : m.Sound s [])
    (h : s.placeCategory d className m = .ok (p, m')) :
    p = s.categoryPlacement? d ∧
      ((s.extended? d).isSome → s.moduleOf d = .ok (s.home d)) ∧ m'.Sound s [] := by
  unfold placeCategory at h
  obtain ⟨named, hnamed, h⟩ := bind_eq_ok_iff.1 h
  have hext : s.extended? d = s.definedInterface? named.usr := by
    simp only [extended?, hk, interfaceNamed_eq_ok hnamed, Option.bind_some]
  split at h
  · next hno =>
    -- The class is only announced: the category is dropped.
    cases h
    have hnone := hext.trans hno
    refine ⟨?_, ?_, hm⟩
    · rw [categoryPlacement?, hnone, Option.map_none]
    · simp [hnone]
  · next cls hcls =>
    obtain ⟨module, hmodule, h⟩ := bind_eq_ok_iff.1 h
    obtain ⟨owner, howner, h⟩ := bind_eq_ok_iff.1 h
    obtain ⟨⟨c, m₁⟩, hc, h⟩ := bind_eq_ok_iff.1 h
    obtain ⟨rfl, hm₁⟩ := container_exact hm hc
    cases h
    have hhome := home_of_moduleOf hmodule
    refine ⟨?_, fun _ => hhome ▸ hmodule, hm₁⟩
    rw [categoryPlacement?, hext.trans hcls, Option.map_some, hhome, home_of_moduleOf howner]

/-- **Exactly the categories of defined classes are placed**, each at home. -/
theorem placeCategories_exact :
    ∀ {ds : List Decl} {placed : List PlacedCategory} {m m' : Memory}, m.Sound s [] →
      s.placeCategories ds m = .ok (placed, m') →
      placed = ds.filterMap s.categoryPlacement? ∧
        ∀ d ∈ ds, (s.extended? d).isSome → s.moduleOf d = .ok (s.home d)
  | [], _, _, _, _, h => by
      cases h
      exact ⟨rfl, by simp⟩
  | d :: ds, _, _, _, hm, h => by
      unfold placeCategories at h
      split at h
      · next className _ _ hk =>
        split at h
        · cases h
        · next p m₁ hp =>
          obtain ⟨rfl, hmodule, hm₁⟩ := placeCategory_exact hk hm hp
          split at h
          · cases h
          · next rest m₂ hrest =>
            obtain ⟨rfl, hmodules⟩ := placeCategories_exact hm₁ hrest
            cases h
            refine ⟨?_, List.forall_mem_cons.2 ⟨hmodule, hmodules⟩⟩
            rw [List.filterMap_cons]
            cases s.categoryPlacement? d <;> rfl
      · next hk =>
        -- Only categories extend a class.
        have hext : s.extended? d = none := by
          unfold extended?
          split
          · next className children protocols hcat =>
            exact absurd hcat (hk className children protocols)
          · rfl
        obtain ⟨rfl, hmodules⟩ := placeCategories_exact hm h
        refine ⟨?_, List.forall_mem_cons.2 ⟨by simp [hext], hmodules⟩⟩
        rw [List.filterMap_cons_none]
        rw [categoryPlacement?, hext, Option.map_none]

/-! ## §5. Plans. -/

/-- Everything but categories that is put anywhere. -/
noncomputable def placements (s : Scope) : List Placed :=
  s.table.definitions.filterMap s.placement? ++ s.announced.map s.announcedPlacement

/-- All categories that are put anywhere. -/
noncomputable def categoryPlacements (s : Scope) : List PlacedCategory :=
  s.table.definitions.filterMap s.categoryPlacement?

/-- The modules of a plan before supertraits are known. -/
noncomputable def drafts (s : Scope) : List ModulePlan :=
  draftModules s.placements s.categoryPlacements

/-- Every declaration that is put anywhere has a module. -/
structure HasHomes (s : Scope) : Prop where
  items : ∀ d ∈ s.table.definitions, (s.item? d).isSome → s.moduleOf d = .ok (s.home d)
  announced : ∀ d ∈ s.announced, s.moduleOf d = .ok (s.home d)
  categories : ∀ d ∈ s.table.definitions, (s.extended? d).isSome →
    s.moduleOf d = .ok (s.home d)

/-- **A plan is made from the placements of its declarations**, which all have
modules. -/
theorem plan_eq_ok {plan : Plan} (hs : s.WellFormed) (h : s.plan = .ok plan) :
    s.HasHomes ∧ plan = ⟨finishModules s.drafts⟩ := by
  unfold Scope.plan at h
  obtain ⟨⟨placed, m₁⟩, hplaced, h⟩ := bind_eq_ok_iff.1 h
  obtain ⟨stubs, hstubs, h⟩ := bind_eq_ok_iff.1 h
  obtain ⟨⟨categories, m₂⟩, hcategories, h⟩ := bind_eq_ok_iff.1 h
  -- The three passes in order: what the first remembers serves the third.
  obtain ⟨rfl, hitems, hm₁⟩ := placeAll_exact hs (fun _ hd => hd) (Memory.sound_nil s) hplaced
  obtain ⟨rfl, hannounced⟩ := placeStubs_exact hstubs
  obtain ⟨rfl, hextends⟩ := placeCategories_exact hm₁ hcategories
  cases h
  exact ⟨⟨hitems, hannounced, hextends⟩, rfl⟩

end Scope

end ObjcBindings
