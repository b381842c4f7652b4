/-
  ObjcBindings.Proofs.PlanAgreement
  ────────────────────────────────
  **TWO SCOPES THAT PLAN ALIKE.**

  A plan is made from questions about definitions, one after the other, each
  with what the earlier ones left in memory.  In scopes that agree the
  questions about the region go alike.  Beside the region the second scope has
  inert definitions that are not in use: about these nothing is asked, so they
  are passed over and the memory stays as it is.

      methodFits, boundMethods, container  — one definition of the region
      place_of_unknown                     — one definition beside it
      placeAll, placeCategories            — all definitions in order
      plan                                 — the plan
-/
import ObjcBindings.Proofs.ScopeAgreement
import ObjcBindings.Proofs.WrittenTypes
import Mathlib

namespace ObjcBindings

/-- Steps of which the first had the same verdict, and left the same memory. -/
theorem Verdict.Alike.orFail {strict : Prop} {m : Memory} {v v' : Verdict}
    (h : Verdict.Alike strict m v v') : ObjcBindings.Alike strict v.orFail v'.orFail := by
  obtain ⟨m₁, _, ⟨b, rfl, rfl⟩ | ⟨e, e', rfl, rfl, same⟩⟩ := h.elim
  · exact .refl _
  · exact .error same

namespace Scope

variable {strict : Prop} {known : Usr → Bool} {s s' : Scope} {usr : Usr} {t : TypeExpr}

/-! ## §1. Questions. -/

/-- At the start of a question there is room in both scopes. -/
theorem Agrees.typeFits (h : s.Agrees strict known s') (hw : t.Within known) (m : Memory) :
    Verdict.Alike strict m (s.typeFits t m) (s'.typeFits t m) :=
  h.fits s.room s'.room [] .value t m hw (s.hasRoom_room m) (s'.hasRoom_room m)

/-- What pointers lead to is examined alike. -/
theorem Agrees.pointeeFits (h : s.Agrees strict known s') (hw : t.Within known) (m : Memory) :
    Verdict.Alike strict m (s.pointeeFits t m) (s'.pointeeFits t m) :=
  h.fits s.room s'.room [] .pointee t m hw (s.hasRoom_room m) (s'.hasRoom_room m)

theorem Agrees.typedefFits (h : s.Agrees strict known s') (husr : known usr = true) (m : Memory) :
    Verdict.Alike strict m (s.typedefFits usr m) (s'.typedefFits usr m) := by
  unfold Scope.typedefFits
  rcases (h.typedef husr).elim with ⟨⟨d, type⟩, hx, hy⟩ | ⟨e, e', hx, hy, same⟩
  · rw [hx, hy]
    have hw : type.Within known := h.within_of_enters (.typedef hx)
    obtain ⟨m₁, hle, ⟨b, hv, hv'⟩ | ⟨e, e', hv, hv', same⟩⟩ := (h.typeFits hw m).elim
    · simp only [hv, hv']
      cases b with
      | true => exact (Verdict.Alike.refl _).mono hle
      | false => exact (h.pointeeFits hw m₁).mono hle
    · simp only [hv, hv']
      exact (Verdict.Alike.of_answer (.error same)).mono hle
  · rw [hx, hy]
    exact .of_answer (.error same)

theorem Agrees.typesFit (h : s.Agrees strict known s') :
    ∀ (ts : List TypeExpr) (m : Memory), (∀ t ∈ ts, t.Within known) →
      Verdict.Alike strict m (s.typesFit ts m) (s'.typesFit ts m)
  | [], m, _ => .refl _
  | t :: ts, m, hw => by
      obtain ⟨ht, hts⟩ := List.forall_mem_cons.1 hw
      rw [Scope.typesFit, Scope.typesFit]
      obtain ⟨m₁, hle, ⟨b, hv, hv'⟩ | ⟨e, e', hv, hv', same⟩⟩ := (h.typeFits ht m).elim
      · rw [hv, hv']
        cases b with
        | true => exact (h.typesFit ts m₁ hts).mono hle
        | false => exact (Verdict.Alike.refl _).mono hle
      · rw [hv, hv']
        exact (Verdict.Alike.of_answer (.error same)).mono hle

/-- Methods are examined alike. -/
theorem Agrees.methodFits (h : s.Agrees strict known s') {method : Method}
    (hw : ∀ t ∈ method.types, t.Within known) (m : Memory) :
    Verdict.Alike strict m (s.methodFits method m) (s'.methodFits method m) := by
  unfold Scope.methodFits
  split
  · exact .refl _
  · exact h.typesFit _ m fun t ht => hw t (Method.mem_crossing_iff.1 ht).mem_types

/-! ## §2. Containers. -/

/-- The pass over methods, one method further. -/
theorem boundMethods_cons (s : Scope) (method : Method) (methods : List Method) (m : Memory) :
    s.boundMethods (method :: methods) m =
      Verdict.orFail (s.methodFits method m) >>= fun (answer, m) =>
        (s.boundMethods methods m).map fun (kept, m) =>
          (if answer then method :: kept else kept, m) := by
  rw [boundMethods]
  rcases s.methodFits method m with ⟨e | answer, m₁⟩
  · rfl
  · simp only [Verdict.orFail, bind, Except.bind]
    rcases s.boundMethods methods m₁ with e | ⟨kept, m₂⟩ <;> rfl

/-- **Both scopes bind the same methods.** -/
theorem Agrees.boundMethods (h : s.Agrees strict known s') :
    ∀ (methods : List Method) (m : Memory),
      (∀ method ∈ methods, ∀ t ∈ method.types, t.Within known) →
      Alike strict (s.boundMethods methods m) (s'.boundMethods methods m)
  | [], m, _ => .refl _
  | method :: methods, m, hw => by
      obtain ⟨hfirst, hrest⟩ := List.forall_mem_cons.1 hw
      rw [boundMethods_cons, boundMethods_cons]
      refine (h.methodFits hfirst m).orFail.bind ?_
      rintro ⟨answer, m₁⟩ _
      exact (h.boundMethods methods m₁ hrest).map _

/-- The pass over protocols, one name further. -/
theorem definedProtocols_cons (s : Scope) (found : List Decl) (name : String)
    (names : List String) :
    s.definedProtocols found (name :: names) =
      s.table.protocolNamed name >>= fun p =>
        match s.table.definition? p.usr with
        | some d => s.definedProtocols (addProtocol found d) names
        | none => s.definedProtocols found names := by
  rw [definedProtocols]
  cases s.table.protocolNamed name <;> rfl

/-- What a name leads to is known. -/
theorem Agrees.known_of_named (h : s.Agrees strict known s') {test : Decl → Bool} {d : Decl}
    (hd : s.table.named? test = some d) : known d.usr = true := by
  refine h.table.declared d ?_
  rcases Option.or_eq_some_iff.1 hd with hd | ⟨_, hd⟩
  · exact List.mem_append_left _ (List.mem_reverse.1 (List.mem_of_find?_eq_some hd))
  · exact List.mem_append_right _ (List.mem_of_find?_eq_some hd)

/-- Both find the same protocols. -/
theorem Agrees.definedProtocols (h : s.Agrees strict known s') :
    ∀ (names : List String) (found : List Decl),
      Alike strict (s.definedProtocols found names) (s'.definedProtocols found names)
  | [], found => .ok found
  | name :: names, found => by
      rw [definedProtocols_cons, definedProtocols_cons]
      refine (h.table.protocolNamed name).bind fun p hp => ?_
      rw [h.table.definition? p.usr (h.known_of_named (protocolNamed_eq_ok hp))]
      cases s.table.definition? p.usr with
      | some d => exact h.definedProtocols names (addProtocol found d)
      | none => exact h.definedProtocols names found

/-- A container is made alike from a source that refers to what is known. -/
theorem Agrees.container (h : s.Agrees strict known s') {source : Decl}
    (hw : source.Within known) (kind : ContainerKind) (target : Decl) (ownerModule : String)
    (superclass : Option Decl) (m : Memory) :
    Alike strict (s.container kind source target ownerModule superclass m)
      (s'.container kind source target ownerModule superclass m) := by
  have hmethods := h.boundMethods source.methods m fun method hmethod t ht =>
    hw.signature hmethod ht
  unfold Scope.container
  rcases hmethods.elim with ⟨⟨methods, m₁⟩, hx, hy⟩ | ⟨e, e', hx, hy, same⟩
  · rw [hx, hy]
    rcases (h.definedProtocols source.protocols []).elim with
      ⟨protocols, hp, hp'⟩ | ⟨e, e', hp, hp', same⟩
    · simp only [hp, hp']
      exact .refl _
    · simp only [hp, hp']
      exact .error same
  · rw [hx, hy]
    exact .error same

/-! ## §3. Definitions. -/

/-- **A definition of the region is placed alike.** -/
theorem Agrees.place (h : s.Agrees strict known s') {d : Decl} (hd : d ∈ s.table.definitions)
    (m : Memory) : Alike strict (s.place d m) (s'.place d m) := by
  have hmem := List.mem_append_left s.table.stubs hd
  have husr := h.table.declared d hmem
  have hw := h.table.within d hmem
  -- An alias is placed if it fits, in its module.
  have halias {v v' : Verdict} (hv : Verdict.Alike strict m v v') :
      Alike strict (do
        let (answer, m) ← Verdict.orFail v
        if answer then
          let module ← s.moduleOf d
          return (some (⟨module, .alias d⟩ : Placed), m)
        else return (none, m)) (do
        let (answer, m) ← Verdict.orFail v'
        if answer then
          let module ← s.moduleOf d
          return (some ⟨module, .alias d⟩, m)
        else return (none, m)) := hv.orFail.bind fun _ _ => .refl _
  unfold Scope.place
  simp only [h.moduleOf, h.used, h.isMerged]
  split
  · next children protocols superclass typeParams hk =>
    refine (Alike.refl _).bind fun module _ => ?_
    have hsuper : ∀ usr ∈ superclass, known usr = true := by
      intro usr hmem
      rw [Option.mem_def] at hmem
      subst hmem
      exact hw.superclass hk
    refine (h.superclassOf hsuper).bind fun above _ => ?_
    exact (h.container hw _ _ _ _ _).bind fun _ _ => .refl _
  · refine (Alike.refl _).bind fun module _ => ?_
    exact (h.container hw _ _ _ _ _).bind fun _ _ => .refl _
  · split
    · exact .refl _
    · exact halias (h.typedefFits husr m)
  · split
    · exact .refl _
    · have hrecord : (TypeExpr.record d.usr).Within known := by
        simp [TypeExpr.Within, TypeExpr.mentioned, husr]
      exact (h.typeFits hrecord m).orFail.bind fun _ _ => .refl _
  · split
    · exact .refl _
    · have henum : (TypeExpr.enum d.usr).Within known := by
        simp [TypeExpr.Within, TypeExpr.mentioned, husr]
      exact halias (h.typeFits henum m)
  · exact .refl _

/-- **A definition beside the region is passed over**: it is inert and not in
use. -/
theorem Agrees.place_of_unknown (h : s.Agrees strict known s') {d : Decl}
    (hd : d ∈ s'.table.definitions) (husr : known d.usr = false) (m : Memory) :
    s'.place d m = .ok (none, m) := by
  have hinert := h.table.inert d hd husr
  have hunused : d.usr ∉ s.used.typedefs ∧ d.usr ∉ s.used.structs ∧ d.usr ∉ s.used.enums := by
    refine ⟨fun hu => ?_, fun hu => ?_, fun hu => ?_⟩
    · simpa [husr] using h.inUse d.usr (.inl hu)
    · simpa [husr] using h.inUse d.usr (.inr (.inl hu))
    · simpa [husr] using h.inUse d.usr (.inr (.inr hu))
  obtain ⟨htypedef, hstruct, henum⟩ := hunused
  unfold Scope.place
  rw [h.used]
  cases hk : d.kind with
  | interface _ _ _ _ | protocol _ _ => simp [Decl.isInert, hk] at hinert
  | typedef type => simp [htypedef]
  | record fields tag => simp [hstruct]
  | enum integerType isClosed enumerators => simp [henum]
  | _ => rfl

/-- The pass over definitions, one definition further. -/
theorem placeAll_cons (s : Scope) (d : Decl) (ds : List Decl) (m : Memory) :
    s.placeAll (d :: ds) m = s.place d m >>= fun (placed, m) =>
      (s.placeAll ds m).map fun (rest, m) => (placed.toList ++ rest, m) := by
  rw [placeAll]
  rcases s.place d m with e | ⟨placed, m₁⟩
  · rfl
  · simp only [bind, Except.bind]
    rcases s.placeAll ds m₁ with e | ⟨rest, m₂⟩ <;> rfl

/-- A definition that is placed nowhere is passed over. -/
theorem placeAll_cons_of_none {d : Decl} {ds : List Decl} {m : Memory}
    (hd : s.place d m = .ok (none, m)) : s.placeAll (d :: ds) m = s.placeAll ds m := by
  rw [placeAll, hd]
  rcases hds : s.placeAll ds m with e | ⟨rest, m₁⟩
  · simp [hds]
  · simp [hds]

/-- **Both scopes place the same definitions.** -/
theorem Agrees.placeAll (h : s.Agrees strict known s') :
    ∀ (ds : List Decl) (m : Memory), (∀ d ∈ ds, d ∈ s'.table.definitions) →
      Alike strict (s.placeAll (ds.filter fun d => known d.usr) m) (s'.placeAll ds m)
  | [], m, _ => .ok ([], m)
  | d :: ds, m, hds => by
      obtain ⟨hd, hrest⟩ := List.forall_mem_cons.1 hds
      cases husr : known d.usr with
      | true =>
          rw [List.filter_cons, if_pos husr, placeAll_cons, placeAll_cons]
          have hmem := h.table.mem_definitions.2 ⟨hd, husr⟩
          refine (h.place hmem m).bind ?_
          rintro ⟨placed, m₁⟩ _
          exact (h.placeAll ds m₁ hrest).map _
      | false =>
          rw [List.filter_cons, if_neg (by simp [husr]),
            placeAll_cons_of_none (h.place_of_unknown hd husr m)]
          exact h.placeAll ds m hrest

/-! ## §4. Stubs and categories. -/

/-- Both announce the same structs. -/
theorem Agrees.placeStubs (h : s.Agrees strict known s') :
    ∀ usrs : List Usr, (∀ usr ∈ usrs, known usr = true) →
      Alike strict (s.placeStubs usrs) (s'.placeStubs usrs)
  | [], _ => .ok []
  | usr :: usrs, hknown => by
      obtain ⟨husr, hrest⟩ := List.forall_mem_cons.1 hknown
      rw [Scope.placeStubs, Scope.placeStubs, Table.isDefined, Table.isDefined,
        h.table.definition? usr husr]
      split
      · exact h.placeStubs usrs hrest
      · refine (h.table.find usr husr).bind fun d _ => ?_
        rw [h.moduleOf]
        refine (Alike.refl _).bind fun module _ => ?_
        exact (h.placeStubs usrs hrest).bind fun _ _ => .refl _

/-- Both place a category alike. -/
theorem Agrees.placeCategory (h : s.Agrees strict known s') {d : Decl} (hw : d.Within known)
    (className : String) (m : Memory) :
    Alike strict (s.placeCategory d className m) (s'.placeCategory d className m) := by
  refine (h.table.interfaceNamed className).bind fun named hnamed => ?_
  rw [h.definedInterface? (h.known_of_named (interfaceNamed_eq_ok hnamed))]
  split
  · exact .refl _
  · next cls _ =>
    simp only [h.moduleOf]
    refine (Alike.refl _).bind fun module _ => ?_
    refine (Alike.refl _).bind fun owner _ => ?_
    exact (h.container hw _ _ _ _ _).bind fun _ _ => .refl _

/-- The pass over categories, one definition further. -/
theorem placeCategories_cons (s : Scope) (d : Decl) (ds : List Decl) (m : Memory) :
    s.placeCategories (d :: ds) m =
      match d.kind with
      | .category className _ _ =>
          s.placeCategory d className m >>= fun (placed, m) =>
            (s.placeCategories ds m).map fun (rest, m) => (placed.toList ++ rest, m)
      | _ => s.placeCategories ds m := by
  rw [placeCategories]
  cases d.kind with
  | category className _ _ =>
      dsimp only
      rcases s.placeCategory d className m with e | ⟨placed, m₁⟩
      · rfl
      · simp only [bind, Except.bind]
        rcases s.placeCategories ds m₁ with e | ⟨rest, m₂⟩ <;> rfl
  | _ => rfl

/-- **Both scopes place the same categories.** -/
theorem Agrees.placeCategories (h : s.Agrees strict known s') :
    ∀ (ds : List Decl) (m : Memory), (∀ d ∈ ds, d ∈ s'.table.definitions) →
      Alike strict (s.placeCategories (ds.filter fun d => known d.usr) m)
        (s'.placeCategories ds m)
  | [], m, _ => .ok ([], m)
  | d :: ds, m, hds => by
      obtain ⟨hd, hrest⟩ := List.forall_mem_cons.1 hds
      rw [placeCategories_cons s']
      cases husr : known d.usr with
      | true =>
          have hmem := h.table.mem_definitions.2 ⟨hd, husr⟩
          have hw := h.table.within d (List.mem_append_left _ hmem)
          rw [List.filter_cons, if_pos husr, placeCategories_cons]
          split
          · refine (h.placeCategory hw _ m).bind ?_
            rintro ⟨placed, m₁⟩ _
            exact (h.placeCategories ds m₁ hrest).map _
          · exact h.placeCategories ds m hrest
      | false =>
          rw [List.filter_cons, if_neg (by simp [husr])]
          split
          · next hk =>
            -- A category is not inert, so it cannot stand beside the region.
            have hinert := h.table.inert d hd husr
            simp [Decl.isInert, hk] at hinert
          · exact h.placeCategories ds m hrest

/-! ## §5. Plans. -/

/-- **Scopes that agree have the same plan.** -/
theorem Agrees.plan (h : s.Agrees strict known s') : Alike strict s.plan s'.plan := by
  unfold Scope.plan
  rw [h.used, h.table.definitions]
  -- The three passes in order: what the first remembers serves the third.
  refine (h.placeAll _ [] fun d hd => hd).bind ?_
  rintro ⟨placed, m⟩ _
  refine (h.placeStubs _ fun usr hu => h.inUse usr (.inr (.inl hu))).bind fun stubs _ => ?_
  exact (h.placeCategories _ m fun d hd => hd).bind fun _ _ => .refl _

end Scope

end ObjcBindings
