/-
  ObjcBindings.Proofs.PlanFailures
  ────────────────────────────────
  **WHAT A PLAN CAN STILL FAIL FOR.**

  The search through the signatures has looked up every typedef, record and
  enum before a plan is made.  A plan looks them up again, in its own order and
  with a memory of its own; but all that it examines was reached by the search,
  so these look-ups succeed:

    • `NeededFor.reaches` — an examination stays among the reached types,
    • `stops_of_blames`   — so it fails at unknown primitive types only, where
      no typedef or enum is made from itself,
    • `stops_of_ofUnit`   — and a plan fails for one of these reasons:

      a primitive type that is not known
      a declaration without a module
      a name of a protocol or class that is not declared
      a superclass that is not declared, or not as a class
-/
import ObjcBindings.Proofs.AcyclicReferences
import ObjcBindings.Proofs.FittingTypes
import ObjcBindings.Proofs.WrittenTypes

namespace ObjcBindings

open Relation (ReflTransGen)

/-! ## §1. Reasons to stop. -/

/-- The declaration is an interface below the USR. -/
def Decl.HasSuperclass (d : Decl) (usr : Usr) : Prop :=
  ∃ children protocols typeParams,
    d.kind = .interface children protocols (some usr) typeParams

namespace Scope

/-- What a plan can fail for. -/
inductive Stops (s : Scope) : Failure → Prop where
  /-- The signatures lead to a primitive type that is not known. -/
  | primitive {name : String} {suggestion : Option String}
      (reached : s.table.Reaches s.table.signatures (.builtin name))
      (unknown : Primitive.ofName name = .error (.unknownPrimitive name suggestion)) :
      Stops s (.unknownPrimitive name suggestion)
  /-- No rule is made for the header of a declaration. -/
  | module {d : Decl} {path : String} (declared : d ∈ s.table.definitions ++ s.table.stubs)
      (lacks : s.LacksModule d (.unknownModule path)) : Stops s (.unknownModule path)
  /-- A declaration of the program has no header. -/
  | location {d : Decl} (declared : d ∈ s.table.definitions ++ s.table.stubs)
      (lacks : s.LacksModule d (.missingLocation d.usr)) : Stops s (.missingLocation d.usr)
  /-- A container names a protocol that is not declared. -/
  | protocol {d : Decl} {name : String} {suggestion : Option String}
      (mem : d ∈ s.table.definitions) (adopted : name ∈ d.protocols)
      (missing : s.table.protocolNamed name = .error (.nameNotFound .protocol name suggestion)) :
      Stops s (.nameNotFound .protocol name suggestion)
  /-- A category extends a class that is not declared. -/
  | extended {d : Decl} {name : String} {children : List Decl} {protocols : List String}
      {suggestion : Option String} (mem : d ∈ s.table.definitions)
      (kind : d.kind = .category name children protocols)
      (missing : s.table.interfaceNamed name = .error (.nameNotFound .interface name suggestion)) :
      Stops s (.nameNotFound .interface name suggestion)
  /-- The superclass of a defined interface is not declared. -/
  | superclass {d : Decl} {usr : Usr} {suggestion : Option String}
      (mem : d ∈ s.table.definitions) (below : d.HasSuperclass usr)
      (missing : s.table.find usr = .error (.declarationNotFound usr suggestion)) :
      Stops s (.declarationNotFound usr suggestion)
  /-- The superclass of a defined interface is declared as something else. -/
  | noClass {d above : Decl} {usr : Usr} (mem : d ∈ s.table.definitions)
      (below : d.HasSuperclass usr) (found : s.table.find usr = .ok above)
      (other : above.isInterface = false) :
      Stops s (.unexpectedKind usr "ObjCInterface" above.kindName)

/-! ## §2. Examinations. -/

variable {s : Scope} {x y : Use × TypeExpr} {roots : List TypeExpr} {e : Failure}

/-- **What an examination needs was reached**, if the type was. -/
theorem NeededFor.reaches (h : s.NeededFor y x) (hx : s.table.Reaches roots x.2) :
    s.table.Reaches roots y.2 := by
  cases h with
  | wrapped | pointer _ | decayed | array => exact .inside hx (List.mem_singleton_self _)
  | typedef found _ =>
      obtain ⟨hfind, hkind⟩ := typedef_eq_ok_iff.1 found
      exact .typedef hx (Table.find_eq_ok_iff.2 hfind) hkind
  | record found inside =>
      obtain ⟨hfind, hkind⟩ := record_eq_ok_iff.1 found
      exact .record hx (Table.find_eq_ok_iff.2 hfind) hkind inside
  | enum found =>
      obtain ⟨hfind, _, hkind⟩ := enum_eq_ok_iff.1 found
      exact .enum hx (Table.find_eq_ok_iff.2 hfind) hkind

/-- What a type that is reached needs, is reached. -/
theorem reaches_of_needed (h : ReflTransGen s.NeededFor y x) (hx : s.table.Reaches roots x.2) :
    s.table.Reaches roots y.2 := by
  -- From the type in question down to what it needs.
  induction h with
  | refl => exact hx
  | tail _ step ih => exact ih (step.reaches hx)

/-- A primitive without a counterpart is reported by its name. -/
theorem ofName_eq_error {name : String} (h : Primitive.ofName name = .error e) :
    ∃ suggestion, e = .unknownPrimitive name suggestion := by
  unfold Primitive.ofName at h
  split at h
  · cases h
  · cases h
    exact ⟨_, rfl⟩

/-- The search has looked up all that the signatures lead to. -/
theorem WellFormed.resolves (hs : s.WellFormed) : s.table.Resolves s.table.signatures :=
  (Table.surveys_of_followContainers hs.used).resolves fun _ ht => Table.mem_signatureTypes_iff.1 ht

/-- What is in use is what the search reached. -/
theorem WellFormed.isClosure (hs : s.WellFormed) :
    s.used.IsClosure s.table s.table.signatures :=
  (Table.isClosure_of_followContainers (fun _ => Iff.rfl) hs.used).1

section Stopping

variable (hs : s.WellFormed) (hacyclic : s.table.Acyclic)
include hs hacyclic

/-- A reached type fails by itself only if it is a primitive type. -/
theorem stops_of_fails (hx : s.table.Reaches s.table.signatures x.2) (h : s.Fails x e) :
    s.Stops e := by
  -- Reached references resolve and lead to no circle: primitive types are left.
  cases h with
  | primitive _ unknown =>
      obtain ⟨_, rfl⟩ := ofName_eq_error unknown
      exact .primitive hx unknown
  | typedef missing =>
      obtain ⟨d, type, hfind, hkind⟩ := hs.resolves.typedefs _ _ hx
      rw [typedef_eq_ok_iff.2 ⟨Table.find_eq_ok_iff.1 hfind, hkind⟩] at missing
      cases missing
  | record missing =>
      obtain ⟨d, fields, tag, hfind, hkind⟩ := hs.resolves.records _ hx
      rw [record_eq_ok_iff.2 ⟨Table.find_eq_ok_iff.1 hfind, hkind⟩] at missing
      cases missing
  | enum missing =>
      obtain ⟨d, integerType, isClosed, enumerators, hfind, hkind⟩ := hs.resolves.enums _ hx
      rw [enum_eq_ok_iff.2 ⟨Table.find_eq_ok_iff.1 hfind, isClosed, hkind⟩] at missing
      cases missing
  | circularTypedef circle => exact absurd circle (not_transGen_inside hacyclic rfl)
  | circularEnum circle => exact absurd circle (not_transGen_inside hacyclic rfl)

/-- **The examination of a reached type fails at unknown primitive types
only.** -/
theorem stops_of_blames (hx : s.table.Reaches s.table.signatures x.2) (h : s.Blames x e) :
    s.Stops e := by
  obtain ⟨y, hneeded, hfails⟩ := h
  exact stops_of_fails hs hacyclic (reaches_of_needed hneeded hx) hfails

end Stopping

end Scope

/-- A just verdict that is a failure. -/
theorem Verdict.IsJust.cause {s : Scope} {stack : List Usr} {answer : Prop}
    {cause : Failure → Prop} {v : Verdict} (h : v.IsJust s stack answer cause) {e : Failure}
    {m : Memory} (hv : v = (.error e, m)) : cause e := by
  subst hv
  exact h.2

namespace Scope

variable {s : Scope} {d : Decl} {m m' : Memory} {e : Failure}

/-- A verdict fails exactly if it is a failure. -/
theorem orFail_eq_error {v : Verdict} (h : Verdict.orFail v = .error e) :
    ∃ m, v = (.error e, m) := by
  obtain ⟨answer, m⟩ := v
  cases answer with
  | ok b => cases h
  | error e' =>
      cases h
      exact ⟨m, rfl⟩

/-! ## §3. Modules, names and superclasses. -/

/-- A USR without declarations is reported. -/
theorem find_eq_error {usr : Usr} (h : s.table.find usr = .error e) :
    ∃ suggestion, e = .declarationNotFound usr suggestion := by
  unfold Table.find at h
  split at h
  · cases h
  · cases h
    exact ⟨_, rfl⟩

theorem protocolNamed_eq_error {name : String} (h : s.table.protocolNamed name = .error e) :
    ∃ suggestion, e = .nameNotFound .protocol name suggestion := by
  unfold Table.protocolNamed at h
  split at h
  · cases h
  · cases h
    exact ⟨_, rfl⟩

theorem interfaceNamed_eq_error {name : String} (h : s.table.interfaceNamed name = .error e) :
    ∃ suggestion, e = .nameNotFound .interface name suggestion := by
  unfold Table.interfaceNamed at h
  split at h
  · cases h
  · cases h
    exact ⟨_, rfl⟩

/-- A declaration without a module stops the plan. -/
theorem stops_of_moduleOf (hd : d ∈ s.table.definitions ++ s.table.stubs)
    (h : s.moduleOf d = .error e) : s.Stops e := by
  have hlacks := moduleOf_eq_error_iff.1 h
  cases hlacks with
  | unruled located silent => exact .module hd (.unruled located silent)
  | unlocated nowhere declared => exact .location hd (.unlocated nowhere declared)

/-- A name without a protocol stops the plan. -/
theorem stops_of_definedProtocols (hd : d ∈ s.table.definitions) :
    ∀ {names : List String} {found : List Decl}, (∀ name ∈ names, name ∈ d.protocols) →
      s.definedProtocols found names = .error e → s.Stops e
  | [], _, _, h => by cases h
  | name :: names, found, hnames, h => by
      obtain ⟨hname, hnames⟩ := List.forall_mem_cons.1 hnames
      unfold definedProtocols at h
      split at h
      · next e' hmissing =>
        cases h
        obtain ⟨_, rfl⟩ := protocolNamed_eq_error hmissing
        exact .protocol hd hname hmissing
      · split at h
        · exact stops_of_definedProtocols hd hnames h
        · exact stops_of_definedProtocols hd hnames h

/-- A category without a class stops the plan. -/
theorem stops_of_interfaceNamed (hd : d ∈ s.table.definitions) {name : String}
    {children : List Decl} {protocols : List String}
    (hk : d.kind = .category name children protocols)
    (h : s.table.interfaceNamed name = .error e) : s.Stops e := by
  obtain ⟨_, rfl⟩ := interfaceNamed_eq_error h
  exact .extended hd hk h

/-- A superclass that is missing or no class stops the plan. -/
theorem stops_of_superclass (hd : d ∈ s.table.definitions) {usr : Usr}
    (hbelow : d.HasSuperclass usr) (h : s.superclass usr = .error e) : s.Stops e := by
  unfold superclass at h
  split at h
  · next e' hmissing =>
    cases h
    obtain ⟨_, rfl⟩ := find_eq_error hmissing
    exact .superclass hd hbelow hmissing
  · next above hfound =>
    split at h
    · cases h
    · next hother =>
      cases h
      rw [Decl.unexpected, Table.usr_of_find? (Table.find_eq_ok_iff.1 hfound)]
      exact .noClass hd hbelow hfound (by simpa using hother)

/-! ## §4. Definitions. -/

section Passes

variable (hs : s.WellFormed) (hacyclic : s.table.Acyclic)
include hs hacyclic

/-- A method stops the plan if its examination fails. -/
theorem stops_of_boundMethods :
    ∀ {methods : List Method} {m : Memory},
      (∀ x ∈ methods, ∀ t, x.Carries t → s.table.Reaches s.table.signatures t) →
      m.Sound s [] → s.boundMethods methods m = .error e → s.Stops e
  | [], _, _, _, h => by cases h
  | method :: methods, m, hreached, hm, h => by
      obtain ⟨hmethod, hmethods⟩ := List.forall_mem_cons.1 hreached
      have hjust := methodFits_just method hm
      unfold boundMethods at h
      split at h
      · next e' m₁ hfails =>
        cases h
        obtain ⟨t, ht, hblames⟩ := hjust.cause hfails
        exact stops_of_blames hs hacyclic (hmethod t ht) hblames
      · next answer m₁ hanswer =>
        split at h
        · next e' hrest =>
          cases h
          exact stops_of_boundMethods hmethods (hjust.exact hanswer).2 hrest
        · cases h

/-- A container stops it through its methods or its protocols. -/
theorem stops_of_container (hd : d ∈ s.table.definitions) (hc : d.isContainer = true)
    {kind : ContainerKind} {target : Decl} {module : String} {superclass : Option Decl}
    (hm : m.Sound s []) (h : s.container kind d target module superclass m = .error e) :
    s.Stops e := by
  have hreached : ∀ x ∈ d.methods, ∀ t, x.Carries t →
      s.table.Reaches s.table.signatures t := by
    intro x hx t ht
    refine .root (List.mem_flatMap.2 ⟨d, List.mem_filter.2 ⟨hd, hc⟩, ?_⟩)
    exact List.mem_flatMap.2 ⟨x, hx, ht.mem_types⟩
  unfold container at h
  split at h
  · next e' hmethods =>
    cases h
    exact stops_of_boundMethods hs hacyclic hreached hm hmethods
  · split at h
    · next e' hprotocols =>
      cases h
      exact stops_of_definedProtocols hd (fun _ hname => hname) hprotocols
    · cases h

section Place

variable (hd : d ∈ s.table.definitions) (hm : m.Sound s []) (h : s.place d m = .error e)
include hd hm h

/-- The pass over definitions stops at an interface for these reasons only. -/
theorem stops_of_interface {children : List Decl} {protocols typeParams : List String}
    {superclass : Option Usr}
    (hk : d.kind = .interface children protocols superclass typeParams) : s.Stops e := by
  simp only [place, hk] at h
  rcases bind_eq_error_iff.1 h with h | ⟨module, _, h⟩
  · exact stops_of_moduleOf (List.mem_append_left _ hd) h
  rcases bind_eq_error_iff.1 h with h | ⟨above, _, h⟩
  · cases superclass with
    | none => cases h
    | some usr => exact stops_of_superclass hd ⟨children, protocols, typeParams, hk⟩ h
  rcases bind_eq_error_iff.1 h with h | ⟨⟨c, m₁⟩, _, h⟩
  · exact stops_of_container hs hacyclic hd (by rw [Decl.isContainer, hk]) hm h
  · cases h

theorem stops_of_protocol {children : List Decl} {protocols : List String}
    (hk : d.kind = .protocol children protocols) : s.Stops e := by
  simp only [place, hk] at h
  rcases bind_eq_error_iff.1 h with h | ⟨module, _, h⟩
  · exact stops_of_moduleOf (List.mem_append_left _ hd) h
  rcases bind_eq_error_iff.1 h with h | ⟨⟨c, m₁⟩, _, h⟩
  · exact stops_of_container hs hacyclic hd (by rw [Decl.isContainer, hk]) hm h
  · cases h

theorem stops_of_typedef {type : TypeExpr} (hk : d.kind = .typedef type) : s.Stops e := by
  have hfind : s.table.find? d.usr = some d := hs.table.find?_of_mem hd
  simp only [place, hk] at h
  split at h
  · cases h
  · next hyes =>
    have hused : d.usr ∈ s.used.typedefs := by
      by_contra hno
      simp [hno] at hyes
    rcases bind_eq_error_iff.1 h with h | ⟨⟨answer, m₁⟩, _, h⟩
    · -- The typedef is in use, so its type was reached.
      obtain ⟨m₁, hfails⟩ := orFail_eq_error h
      obtain ⟨⟨name, hreached⟩, _⟩ := (hs.isClosure.typedefs d.usr).1 hused
      obtain ⟨use, hblames⟩ :=
        (typedefFits_just (typedef_eq_ok_iff.2 ⟨hfind, hk⟩) hm).cause hfails
      exact stops_of_blames hs hacyclic (.typedef hreached (Table.find_eq_ok_iff.2 hfind) hk)
        hblames
    · cases answer with
      | false => cases h
      | true =>
          rcases bind_eq_error_iff.1 h with h | ⟨module, _, h⟩
          · exact stops_of_moduleOf (List.mem_append_left _ hd) h
          · cases h

theorem stops_of_record {fields : List Decl} {tag : TagKind} (hk : d.kind = .record fields tag) :
    s.Stops e := by
  simp only [place, hk] at h
  split at h
  · cases h
  · next hused =>
    rcases bind_eq_error_iff.1 h with h | ⟨⟨answer, m₁⟩, _, h⟩
    · obtain ⟨m₁, hfails⟩ := orFail_eq_error h
      have hreached := ((hs.isClosure.structs d.usr).1 (not_not.1 hused)).1
      exact stops_of_blames hs hacyclic hreached ((typeFits_just hm).cause hfails)
    · rcases bind_eq_error_iff.1 h with h | ⟨module, _, h⟩
      · exact stops_of_moduleOf (List.mem_append_left _ hd) h
      · cases h

theorem stops_of_enum {integerType : Option TypeExpr} {isClosed : Bool} {enumerators : List Decl}
    (hk : d.kind = .enum integerType isClosed enumerators) : s.Stops e := by
  simp only [place, hk] at h
  split at h
  · cases h
  · next hused =>
    rcases bind_eq_error_iff.1 h with h | ⟨⟨answer, m₁⟩, _, h⟩
    · obtain ⟨m₁, hfails⟩ := orFail_eq_error h
      have hreached := ((hs.isClosure.enums d.usr).1 (not_not.1 hused)).1
      exact stops_of_blames hs hacyclic hreached ((typeFits_just hm).cause hfails)
    · cases answer with
      | false => cases h
      | true =>
          rcases bind_eq_error_iff.1 h with h | ⟨module, _, h⟩
          · exact stops_of_moduleOf (List.mem_append_left _ hd) h
          · cases h

/-- **Why a definition cannot be placed**: one case for each kind. -/
theorem stops_of_place : s.Stops e := by
  cases hk : d.kind with
  | interface _ _ _ _ => exact stops_of_interface hs hacyclic hd hm h hk
  | protocol _ _ => exact stops_of_protocol hs hacyclic hd hm h hk
  | typedef _ => exact stops_of_typedef hs hacyclic hd hm h hk
  | record _ _ => exact stops_of_record hs hacyclic hd hm h hk
  | enum _ _ _ => exact stops_of_enum hs hacyclic hd hm h hk
  | category _ _ _ | method _ | property _ | ivar _ | field _ _ | enumConstant _
  | function _ _ _ _ | var _ =>
      simp only [place, hk] at h
      cases h

end Place

/-! ## §5. Passes. -/

/-- **The pass over definitions stops for these reasons only.** -/
theorem stops_of_placeAll :
    ∀ {ds : List Decl} {m : Memory}, (∀ d ∈ ds, d ∈ s.table.definitions) → m.Sound s [] →
      s.placeAll ds m = .error e → s.Stops e
  | [], _, _, _, h => by cases h
  | d :: ds, m, hds, hm, h => by
      obtain ⟨hd, hds⟩ := List.forall_mem_cons.1 hds
      unfold placeAll at h
      split at h
      · next e' hplace =>
        cases h
        exact stops_of_place hs hacyclic hd hm hplace
      · next placed m₁ hplace =>
        split at h
        · next e' hrest =>
          cases h
          exact stops_of_placeAll hds (place_exact hs hd hm hplace).2 hrest
        · cases h

omit hacyclic in
/-- A struct in use that is only announced was looked up before. -/
theorem stops_of_placeStubs :
    ∀ {usrs : List Usr}, (∀ usr ∈ usrs, usr ∈ s.used.structs) →
      s.placeStubs usrs = .error e → s.Stops e
  | [], _, h => by cases h
  | usr :: usrs, husrs, h => by
      obtain ⟨hused, husrs⟩ := List.forall_mem_cons.1 husrs
      obtain ⟨_, d, fields, tag, hfind, _⟩ := (hs.isClosure.structs usr).1 hused
      unfold placeStubs at h
      split at h
      · exact stops_of_placeStubs husrs h
      · rcases bind_eq_error_iff.1 h with h | ⟨d', hfind', h⟩
        · rw [hfind] at h
          cases h
        rcases bind_eq_error_iff.1 h with h | ⟨module, _, h⟩
        · exact stops_of_moduleOf (Table.mem_of_find hfind') h
        rcases bind_eq_error_iff.1 h with h | ⟨rest, _, h⟩
        · exact stops_of_placeStubs husrs h
        · cases h

/-- A category stops the plan for these reasons only. -/
theorem stops_of_placeCategory (hd : d ∈ s.table.definitions) {name : String}
    {children : List Decl} {protocols : List String}
    (hk : d.kind = .category name children protocols) (hm : m.Sound s [])
    (h : s.placeCategory d name m = .error e) : s.Stops e := by
  unfold placeCategory at h
  rcases bind_eq_error_iff.1 h with h | ⟨named, _, h⟩
  · exact stops_of_interfaceNamed hd hk h
  split at h
  · cases h
  · next cls hcls =>
    obtain ⟨hclass, _⟩ := (definedInterface?_eq_some_iff hs).1 hcls
    rcases bind_eq_error_iff.1 h with h | ⟨module, _, h⟩
    · exact stops_of_moduleOf (List.mem_append_left _ hd) h
    rcases bind_eq_error_iff.1 h with h | ⟨owner, _, h⟩
    · exact stops_of_moduleOf (List.mem_append_left _ hclass) h
    rcases bind_eq_error_iff.1 h with h | ⟨⟨c, m₁⟩, _, h⟩
    · exact stops_of_container hs hacyclic hd (by rw [Decl.isContainer, hk]) hm h
    · cases h

/-- **The pass over categories stops for these reasons only.** -/
theorem stops_of_placeCategories :
    ∀ {ds : List Decl} {m : Memory}, (∀ d ∈ ds, d ∈ s.table.definitions) → m.Sound s [] →
      s.placeCategories ds m = .error e → s.Stops e
  | [], _, _, _, h => by cases h
  | d :: ds, m, hds, hm, h => by
      obtain ⟨hd, hds⟩ := List.forall_mem_cons.1 hds
      unfold placeCategories at h
      split at h
      · next className _ _ hk =>
        split at h
        · next e' hplace =>
          cases h
          exact stops_of_placeCategory hs hacyclic hd hk hm hplace
        · next placed m₁ hplace =>
          split at h
          · next e' hrest =>
            cases h
            exact stops_of_placeCategories hds (placeCategory_exact hk hm hplace).2.2 hrest
          · cases h
      · exact stops_of_placeCategories hds hm h

end Passes

/-- **What a plan can fail for**, after the search through the signatures: an
unknown primitive type, a missing module, a name that is not declared, or a
superclass that is no class. -/
theorem stops_of_ofUnit {unit : TranslationUnit} {rules : List ModuleRule}
    (hunit : ofUnit unit rules = .ok s) (hacyclic : s.table.Acyclic)
    (h : s.plan = .error e) : s.Stops e := by
  have hs := wellFormed_of_ofUnit hunit
  unfold Scope.plan at h
  rcases bind_eq_error_iff.1 h with h | ⟨⟨placed, m₁⟩, hplaced, h⟩
  · exact stops_of_placeAll hs hacyclic (fun _ hd => hd) (Memory.sound_nil s) h
  have hm₁ := (placeAll_exact hs (fun _ hd => hd) (Memory.sound_nil s) hplaced).2.2
  rcases bind_eq_error_iff.1 h with h | ⟨stubs, _, h⟩
  · exact stops_of_placeStubs hs (fun _ husr => husr) h
  rcases bind_eq_error_iff.1 h with h | ⟨⟨categories, m₂⟩, _, h⟩
  · exact stops_of_placeCategories hs hacyclic (fun _ hd => hd) hm₁ h
  · cases h

end Scope

/-! ## §6. A small unit. -/

namespace Misled

/-- A class whose superclass is declared as a protocol, with a method that takes
an enum. -/
def unit : TranslationUnit where
  children :=
    [.implicit "t:Word" "Word" (.typedef (.builtin "UInt")),
     .implicit "e:Mode" "Mode" (.enum (some (.ofName "Word")) false
       [.implicit "Plain" "Plain" (.enumConstant (some "0"))]),
     .implicit "p:Container" "Container" (.protocol [] []),
     .implicit "c:Box" "Box" (.interface
       [.ofMethod "open:" [.enum "e:Mode"] (.builtin "Void")] [] (some "p:Container") [])]

/-- The scope of the unit. -/
def scope : Scope where
  table := ⟨unit.children, []⟩
  used := { typedefs := ["t:Word"], enums := ["e:Mode"], objc := ["c:Box", "p:Container"] }
  rules := []
  tagNames := []

/-- The enum is above the typedef that it is made from. -/
def rank (usr : Usr) : Nat := if usr = "e:Mode" then 1 else 0

/-- The search through the signature succeeds, and the plan fails at the
superclass. -/
theorem misled_stops :
    Scope.ofUnit unit [] = .ok scope ∧ scope.table.Acyclic ∧
      scope.plan = .error (.unexpectedKind "p:Container" "ObjCInterface" "ObjCProtocol") ∧
      scope.Stops (.unexpectedKind "p:Container" "ObjCInterface" "ObjCProtocol") := by
  have hunit : Scope.ofUnit unit [] = .ok scope := by cbv
  have hfalls : scope.table.Falls rank := by
    show ∀ d ∈ unit.children ++ [], ∀ type ∈ d.underlying?,
      ∀ usr ∈ type.mentioned, rank usr < rank d.usr
    decide
  have hacyclic : scope.table.Acyclic := Table.acyclic_of_rank hfalls
  have hplan : scope.plan = .error
      (.unexpectedKind "p:Container" "ObjCInterface" "ObjCProtocol") := by cbv
  exact ⟨hunit, hacyclic, hplan, Scope.stops_of_ofUnit hunit hacyclic hplan⟩

end Misled

end ObjcBindings
