/-
  ObjcBindings.Proofs.SuperclassChains
  ────────────────────────────────
  **WHICH INTERFACES ARE RECORDED.**

  A reference to an interface leads up the chain of its superclasses, to the
  first that is recorded already.  Containers are recorded, too, when their
  methods are about to be followed, but nobody climbs from there.  So a chain
  ends early at a class whose own turn has come, and what stands above that
  class is recorded or not as the containers happen to be ordered:

    • `Climbs` — the chain leads there past no container whose turn has come,
    • `recorded_interfaces` — what is recorded are the containers and what the
      signatures of each of them climb to; where defined classes extend
      defined classes only, that is every chain as a whole,
    • `chain_cut_short` — a class that refers to itself loses a superclass that
      it keeps if another class refers to it first.
-/
import ObjcBindings.Proofs.ReachedDeclarations

namespace ObjcBindings

namespace Table

variable {table : Table} {roots : List TypeExpr} {seen : List Usr} {todo : List Pending}
  {used used' : Used} {ds : List Decl}

/-! ## §1. Climbing. -/

/-- The containers, in the order in which their methods are followed. -/
def containers (table : Table) : List Decl :=
  table.definitions.filter Decl.isContainer

/-- A type that `roots` reach names the interface, or it is the superclass of
one that is climbed to and not in `seen`. -/
inductive Climbs (table : Table) (roots : List TypeExpr) (seen : List Usr) : Usr → Prop where
  | named {base : Option TypeExpr} {usr : Usr} {protocols : List String}
      {args : List TypeExpr}
      (reached : table.Reaches roots (.object base (some usr) protocols args)) :
      Climbs table roots seen usr
  | above {usr superclass : Usr} {d : Decl} {children : List Decl}
      {protocols typeParams : List String} (below : Climbs table roots seen usr)
      (new : usr ∉ seen) (found : table.find usr = .ok d)
      (kind : d.kind = .interface children protocols (some superclass) typeParams) :
      Climbs table roots seen superclass

/-- The signatures of a container climb to the interface, past none of the
containers up to it. -/
def ClimbsFrom (table : Table) (ds : List Decl) (usr : Usr) : Prop :=
  ∃ before c after, ds = before ++ c :: after ∧
    table.Climbs (signatureTypes [c]) ((before ++ [c]).map Decl.usr) usr

/-- The superclass of every defined class is a container, too. -/
def ExtendsDefined (table : Table) : Prop :=
  ∀ d ∈ table.definitions, ∀ children protocols superclass typeParams,
    d.kind = .interface children protocols (some superclass) typeParams →
    ∃ c ∈ table.containers, c.usr = superclass

/-! ## §2. All that is recorded is climbed to. -/

/-- An interface is recorded by recording it, or was before. -/
theorem has_objc_record {r : Ref} (usr : Usr) :
    usr ∈ (used.record r).objc ↔ Ref.interface usr = r ∨ usr ∈ used.objc :=
  @Used.has_record used r (.interface usr)

/-- The pending reference is reached, an interface by climbing. -/
def Climbable (table : Table) (roots : List TypeExpr) (seen : List Usr) : Pending → Prop
  | .type t => table.Reaches roots t
  | .interface usr => table.Climbs roots seen usr

theorem climbable_parts {t : TypeExpr} (ht : table.Reaches roots t) :
    ∀ q ∈ t.parts, table.Climbable roots seen q := by
  intro q hq
  cases q with
  | type t' => exact ht.parts _ hq
  | interface usr =>
      -- Only an object type refers to an interface.
      cases t <;> simp [TypeExpr.parts] at hq
      case object base interface protocols args =>
        subst hq
        exact .named ht

/-- What a new reference leads to can be climbed to: the interface itself is
not among those seen. -/
theorem climbable_of_opens {p : Pending} {r : Ref} {ps : List Pending}
    (hp : table.Climbable roots seen p) (is : p.Is table r) (opens : r.Opens table ps)
    (hnew : ∀ usr, r = .interface usr → usr ∉ seen) :
    ∀ q ∈ ps, table.Climbable roots seen q := by
  intro q hq
  cases opens with
  | interface found kind =>
      cases is
      obtain ⟨superclass, hsuper, rfl⟩ := List.mem_map.1 hq
      rw [Option.mem_toList.1 hsuper] at kind
      exact .above hp (hnew _ rfl) found kind
  | typedef found kind =>
      cases is
      rw [List.mem_singleton.1 hq]
      exact .typedef hp found kind
  | struct found kind _ =>
      cases is
      obtain ⟨t, ht, rfl⟩ := List.mem_map.1 hq
      exact .record hp found kind ht
  | union found kind =>
      cases is
      obtain ⟨t, ht, rfl⟩ := List.mem_map.1 hq
      exact .record hp found kind ht
  | enum found kind =>
      cases is
      obtain ⟨t, ht, rfl⟩ := List.mem_map.1 hq
      rw [Option.mem_toList.1 ht] at kind
      exact .enum hp found kind

/-- **A run records only what it climbs to**, if all that was seen is recorded
before it. -/
theorem Follows.climbs (h : table.Follows todo used used') :
    (∀ usr ∈ seen, usr ∈ used.objc) → (∀ p ∈ todo, table.Climbable roots seen p) →
      ∀ usr ∈ used'.objc, usr ∈ used.objc ∨ table.Climbs roots seen usr := by
  -- Along the run `seen` stays recorded and each pending reference climbable.
  induction h with
  | done => exact fun _ _ usr husr => .inl husr
  | known _ _ _ ih =>
      exact fun hseen htodo => ih hseen fun q hq => htodo q (List.mem_cons_of_mem _ hq)
  | @enter p r ps rest used _ is new opens _ ih =>
      intro hseen htodo usr husr
      have hp := htodo p List.mem_cons_self
      -- A container that was seen is not entered, and its superclass not looked at.
      have hnew : ∀ usr, r = .interface usr → usr ∉ seen := by
        rintro usr rfl hmem
        exact new (hseen usr hmem)
      have hseen' : ∀ usr ∈ seen, usr ∈ (used.record r).objc :=
        fun usr hmem => (has_objc_record usr).2 (.inr (hseen usr hmem))
      have htodo' : ∀ q ∈ ps ++ rest, table.Climbable roots seen q := by
        intro q hq
        rcases List.mem_append.1 hq with hq | hq
        · exact climbable_of_opens hp is opens hnew q hq
        · exact htodo q (List.mem_cons_of_mem _ hq)
      rcases ih hseen' htodo' usr husr with hrecorded | hclimbs
      · -- What the step itself recorded is the reference, if that is an interface.
        rcases (has_objc_record usr).1 hrecorded with heq | hbefore
        · subst heq
          cases is
          exact .inr hp
        · exact .inl hbefore
      · exact .inr hclimbs
  | @descend t rest _ _ _ _ _ ih =>
      intro hseen htodo
      refine ih hseen fun q hq => ?_
      rcases List.mem_append.1 hq with hq | hq
      · exact climbable_parts (htodo (.type t) List.mem_cons_self) q hq
      · exact htodo q (List.mem_cons_of_mem _ hq)

theorem climbs_of_followMethods {owner : String} :
    ∀ {ms : List Method} {used used' : Used}, (∀ usr ∈ seen, usr ∈ used.objc) →
      (∀ m ∈ ms, ∀ t ∈ m.types, table.Reaches roots t) →
      table.followMethods owner ms used = .ok used' →
      ∀ usr ∈ used'.objc, usr ∈ used.objc ∨ table.Climbs roots seen usr
  | [], used, used', _, _, h, usr, husr => by
      injection h with h
      exact .inl (h ▸ husr)
  | m :: ms, used, used', hseen, hms, h, usr, husr => by
      rw [followMethods] at h
      split at h
      · cases h
      · next used₁ hm =>
        have hrun := follows_of_follow hm
        have htodo : ∀ p ∈ m.types.map Pending.type, table.Climbable roots seen p := by
          intro p hp
          obtain ⟨t, ht, rfl⟩ := List.mem_map.1 hp
          exact hms m List.mem_cons_self t ht
        have hseen₁ : ∀ usr ∈ seen, usr ∈ used₁.objc :=
          fun usr hmem => hrun.has_mono (.interface usr) (hseen usr hmem)
        rcases climbs_of_followMethods hseen₁ (fun m' hm' => hms m' (List.mem_cons_of_mem m hm'))
            h usr husr with husr₁ | hclimbs
        · exact hrun.climbs hseen htodo usr husr₁
        · exact .inr hclimbs

/-- The signatures of a container are its methods' types. -/
theorem reaches_signature {c : Decl} {m : Method} {t : TypeExpr} (hm : m ∈ c.methods)
    (ht : t ∈ m.types) : table.Reaches (signatureTypes [c]) t :=
  .root (List.mem_flatMap.2 ⟨c, List.mem_singleton_self c, List.mem_flatMap.2 ⟨m, hm, ht⟩⟩)

/-- **A search records only containers and what their signatures climb to**,
past none of the containers before it. -/
theorem climbs_of_followContainers :
    ∀ {before ds : List Decl} {used used' : Used}, (∀ c ∈ before, c.usr ∈ used.objc) →
      table.followContainers ds used = .ok used' → ∀ usr ∈ used'.objc,
      usr ∈ used.objc ∨ (∃ c ∈ ds, c.usr = usr) ∨
        ∃ mid c after, ds = mid ++ c :: after ∧
          table.Climbs (signatureTypes [c]) ((before ++ mid ++ [c]).map Decl.usr) usr
  | before, [], used, used', _, h, usr, husr => by
      injection h with h
      exact .inl (h ▸ husr)
  | before, d :: ds, used, used', hbefore, h, usr, husr => by
      rw [followContainers] at h
      split at h
      · cases h
      · next used₁ hd =>
        let seeded := used.record (.interface d.usr)
        have hseeded : ∀ c ∈ before ++ [d], c.usr ∈ seeded.objc := by
          intro c hc
          refine (has_objc_record c.usr).2 ?_
          rcases List.mem_append.1 hc with hc | hc
          · exact .inr (hbefore c hc)
          · exact .inl (by rw [List.mem_singleton.1 hc])
        have hseen : ∀ x ∈ (before ++ [d]).map Decl.usr, x ∈ seeded.objc := by
          intro x hx
          obtain ⟨c, hc, rfl⟩ := List.mem_map.1 hx
          exact hseeded c hc
        have hmethods := climbs_of_followMethods hseen
          (fun m hm t ht => reaches_signature hm ht) hd
        have hseeded₁ : ∀ c ∈ before ++ [d], c.usr ∈ used₁.objc := fun c hc =>
          (surveys_of_followMethods hd).grows.mono (.interface c.usr) (hseeded c hc)
        -- Recorded by a later container, by this one's methods, by its turn, or before.
        rcases climbs_of_followContainers hseeded₁ h usr husr with
          husr₁ | ⟨c, hc, hcu⟩ | ⟨mid, c, after, rfl, hclimbs⟩
        · rcases hmethods usr husr₁ with hseeded' | hclimbs
          · rcases (has_objc_record usr).1 hseeded' with heq | hused
            · injection heq with heq
              exact .inr (.inl ⟨d, List.mem_cons_self, heq.symm⟩)
            · exact .inl hused
          · exact .inr (.inr ⟨[], d, ds, rfl, by simpa using hclimbs⟩)
        · exact .inr (.inl ⟨c, List.mem_cons_of_mem d hc, hcu⟩)
        · exact .inr (.inr ⟨d :: mid, c, after, rfl, by simpa using hclimbs⟩)

/-! ## §3. All that is climbed to is recorded. -/

/-- Every container of a search is recorded. -/
theorem seeded_of_followContainers :
    ∀ {ds : List Decl} {used used' : Used}, table.followContainers ds used = .ok used' →
      ∀ c ∈ ds, c.usr ∈ used'.objc
  | [], _, _, _, c, hc => absurd hc List.not_mem_nil
  | d :: ds, used, used', h, c, hc => by
      rw [followContainers] at h
      split at h
      · cases h
      · next used₁ hd =>
        rcases List.mem_cons.1 hc with rfl | hc
        · have hseed : (used.record (.interface c.usr)).Has (.interface c.usr) :=
            Used.has_record.2 (.inl rfl)
          have hmethods := (surveys_of_followMethods hd).grows.mono _ hseed
          exact (surveys_of_followContainers h).grows.mono _ hmethods
        · exact seeded_of_followContainers h c hc

theorem opened_of_followMethods {owner : String} :
    ∀ {ms : List Method} {used used' : Used}, table.followMethods owner ms used = .ok used' →
      ∀ r, used'.Has r → used.Has r ∨ table.Opened used' r
  | [], used, used', h, r, hr => by
      injection h with h
      exact .inl (h ▸ hr)
  | m :: ms, used, used', h, r, hr => by
      rw [followMethods] at h
      split at h
      · cases h
      · next used₁ hm =>
        rcases opened_of_followMethods h r hr with hr | hopened
        · rcases (follows_of_follow hm).opened r hr with hr | hopened
          · exact .inl hr
          · exact .inr (hopened.mono (surveys_of_followMethods h).grows.mono)
        · exact .inr hopened

/-- **What a search records, it has opened**, containers apart. -/
theorem opened_of_followContainers :
    ∀ {ds : List Decl} {used used' : Used}, table.followContainers ds used = .ok used' →
      ∀ r, used'.Has r → used.Has r ∨ table.Opened used' r ∨ ∃ c ∈ ds, r = .interface c.usr
  | [], used, used', h, r, hr => by
      injection h with h
      exact .inl (h ▸ hr)
  | d :: ds, used, used', h, r, hr => by
      rw [followContainers] at h
      split at h
      · cases h
      · next used₁ hd =>
        rcases opened_of_followContainers h r hr with hr | hopened | ⟨c, hc, hcr⟩
        · rcases opened_of_followMethods hd r hr with hr | hopened
          · rcases Used.has_record (r := .interface d.usr) |>.1 hr with heq | hr
            · exact .inr (.inr ⟨d, List.mem_cons_self, heq⟩)
            · exact .inl hr
          · exact .inr (.inl (hopened.mono (surveys_of_followContainers h).grows.mono))
        · exact .inr (.inl hopened)
        · exact .inr (.inr ⟨c, List.mem_cons_of_mem d hc, hcr⟩)

/-- A search through two rows of containers is one through each. -/
theorem followContainers_append :
    ∀ {ds ds' : List Decl} {used used' : Used},
      table.followContainers (ds ++ ds') used = .ok used' →
      ∃ used₁, table.followContainers ds used = .ok used₁ ∧
        table.followContainers ds' used₁ = .ok used'
  | [], _, used, _, h => ⟨used, rfl, h⟩
  | d :: ds, ds', used, used', h => by
      rw [List.cons_append, followContainers] at h
      split at h
      · cases h
      · next used₁ hd =>
        obtain ⟨used₂, h₁, h₂⟩ := followContainers_append h
        refine ⟨used₂, ?_, h₂⟩
        rw [followContainers]
        simp only [hd]
        exact h₁

/-- A search from nothing records every interface that its signatures name. -/
theorem mem_objc_of_named (h : table.followContainers ds {} = .ok used)
    (hroots : ∀ t ∈ roots, t ∈ signatureTypes ds) {base : Option TypeExpr} {usr : Usr}
    {protocols : List String} {args : List TypeExpr}
    (hreached : table.Reaches roots (.object base (some usr) protocols args)) :
    usr ∈ used.objc := by
  have hsurvey := surveys_of_followContainers h
  have haccepts := hsurvey.accepts_of_reaches
    (fun t ht => mem_signatureTypes_iff.1 (hroots t ht)) hreached
  have hpart : Pending.interface usr ∈ (TypeExpr.object base (some usr) protocols args).parts := by
    simp [TypeExpr.parts]
  exact haccepts.covers (.interface usr) (.part hpart (.self (.interface usr)))

/-- Above a recorded interface that is no container of the search, its
superclass is recorded. -/
theorem mem_objc_of_above (h : table.followContainers ds {} = .ok used) {usr superclass : Usr}
    {d : Decl} {children : List Decl} {protocols typeParams : List String}
    (hrecorded : usr ∈ used.objc) (hnew : usr ∉ ds.map Decl.usr) (found : table.find usr = .ok d)
    (kind : d.kind = .interface children protocols (some superclass) typeParams) :
    superclass ∈ used.objc := by
  rcases opened_of_followContainers h (.interface usr) hrecorded with hnil | hopened | ⟨c, hc, heq⟩
  · cases hnil
  · obtain ⟨ps, hps, haccepts⟩ := hopened
    have hopens : (Ref.interface usr).Opens table [.interface superclass] :=
      .interface found kind
    rw [hps.unique hopens] at haccepts
    have haccepted := haccepts _ List.mem_cons_self
    exact haccepted.covers (.interface superclass) (.self (.interface superclass))
  · injection heq with heq
    exact absurd (List.mem_map.2 ⟨c, hc, heq.symm⟩) hnew

/-- **What a container climbs to is recorded** when its turn is over. -/
theorem mem_objc_of_climbs {before : List Decl} {c : Decl} {usr : Usr}
    (h : table.followContainers (before ++ [c]) {} = .ok used)
    (hclimbs : table.Climbs (signatureTypes [c]) ((before ++ [c]).map Decl.usr) usr) :
    usr ∈ used.objc := by
  have hroots : ∀ t ∈ signatureTypes [c], t ∈ signatureTypes (before ++ [c]) := by
    intro t ht
    obtain ⟨x, hx, ht⟩ := List.mem_flatMap.1 ht
    exact List.mem_flatMap.2 ⟨x, List.mem_append_right before hx, ht⟩
  induction hclimbs with
  | named reached => exact mem_objc_of_named h hroots reached
  | above _ new found kind ih => exact mem_objc_of_above h ih new found kind

/-! ## §4. The theorem. -/

/-- What has a container as its definition is found among the definitions. -/
theorem mem_definitions_of_container {c d : Decl} (hc : c ∈ table.containers)
    (found : table.find c.usr = .ok d) : d ∈ table.definitions := by
  rcases mem_of_find? (find_eq_ok_iff.1 found) with hd | ⟨_, hundefined⟩
  · exact hd
  · have hsome : table.definition? c.usr ≠ none := by
      rw [Ne, definition?_eq_none_iff, not_not]
      exact List.mem_map_of_mem (List.mem_filter.1 hc).1
    rw [isDefined, Option.isSome_eq_false_iff, Option.isNone_iff_eq_none] at hundefined
    exact absurd hundefined hsome

/-- **Recorded are the containers and what the signatures of each climb to**,
past no container up to it; where defined classes extend defined classes only,
every interface that is referred to is recorded with its whole chain of
superclasses. -/
theorem recorded_interfaces (h : table.used = .ok used) :
    (∀ usr, usr ∈ used.objc ↔
      (∃ c ∈ table.containers, c.usr = usr) ∨ table.ClimbsFrom table.containers usr) ∧
    (table.ExtendsDefined →
      ∀ usr, table.ReachesInterface table.signatures usr → usr ∈ used.objc) := by
  have hseeded := seeded_of_followContainers h
  constructor
  · intro usr
    constructor
    · intro husr
      have hrecorded :=
        climbs_of_followContainers (fun _ hc => absurd hc List.not_mem_nil) h usr husr
      rcases hrecorded with hnil | hc | hclimbs
      · cases hnil
      · exact .inl hc
      · obtain ⟨mid, c, after, hsplit, hclimbs⟩ := hclimbs
        exact .inr ⟨mid, c, after, hsplit, by simpa only [List.nil_append] using hclimbs⟩
    · rintro (⟨c, hc, rfl⟩ | ⟨before, c, after, hsplit, hclimbs⟩)
      · exact hseeded c hc
      · -- What the run had recorded up to that container stays recorded.
        have hrun : table.followContainers (before ++ [c] ++ after) {} = .ok used := by
          rw [List.append_assoc, List.singleton_append, ← hsplit]
          exact h
        obtain ⟨used₁, h₁, h₂⟩ := followContainers_append hrun
        have husr₁ := mem_objc_of_climbs h₁ hclimbs
        exact (surveys_of_followContainers h₂).grows.mono (.interface usr) husr₁
  · intro hextends usr hreached
    induction hreached with
    | named reached => exact mem_objc_of_named h (fun _ ht => ht) reached
    | @above usr superclass d _ _ _ _ found kind ih =>
        by_cases hseed : usr ∈ table.containers.map Decl.usr
        · -- Nobody climbs from a container, but its superclass is one, too.
          obtain ⟨c, hc, husr⟩ := List.mem_map.1 hseed
          subst husr
          obtain ⟨c', hc', rfl⟩ :=
            hextends d (mem_definitions_of_container hc found) _ _ _ _ kind
          exact hseeded c' hc'
        · exact mem_objc_of_above h ih hseed found kind

end Table

/-! ## §5. A chain that is cut short. -/

/-- A class that returns itself and extends a class that is only announced. -/
def leafClass : Decl :=
  .implicit "c:Leaf" "Leaf" (.interface
    [.ofMethod "copy" [] (.objectPointer (.object none (some "c:Leaf") [] []))] []
    (some "c:Root") [])

/-- A class that takes the other. -/
def userClass : Decl :=
  .implicit "c:User" "User" (.interface
    [.ofMethod "use:" [.objectPointer (.object none (some "c:Leaf") [] [])]
      (.builtin "Void")] [] none [])

/-- The announced class, once it is defined. -/
def rootClass : Decl :=
  .implicit "c:Root" "Root" (.interface [] [] none [])

/-- The classes in some order, with the announced class. -/
def chainTable (classes : List Decl) : Table where
  definitions := classes
  stubs :=
    [{ usr := "c:Root", name := "Root", location := none, isImplicit := true
       isReferenced := false, isForward := true, kind := .interface [] [] none [] }]

/-- The signatures of the class that returns itself reach the object type that
names it. -/
theorem returns_self (classes : List Decl) (hmem : leafClass ∈ classes) :
    (chainTable classes).Reaches (chainTable classes).signatures
      (.object none (some "c:Leaf") [] []) := by
  have hcontainer : leafClass ∈ (chainTable classes).containers :=
    List.mem_filter.2 ⟨hmem, rfl⟩
  have hroot : TypeExpr.objectPointer (.object none (some "c:Leaf") [] [])
      ∈ (chainTable classes).signatures :=
    List.mem_flatMap.2 ⟨leafClass, hcontainer, by decide +kernel⟩
  exact .inside (.root hroot) List.mem_cons_self

/-- With the user in front, the whole chain of the other class is recorded, by
climbing from the user; with the announced class defined, in any case. -/
theorem user_recorded_interfaces :
    ((chainTable [userClass, leafClass]).used = .ok { objc := ["c:Leaf", "c:Root", "c:User"] } ∧
      (chainTable [userClass, leafClass]).ClimbsFrom [userClass, leafClass] "c:Root") ∧
    (chainTable [leafClass, rootClass]).used = .ok { objc := ["c:Leaf", "c:Root"] } ∧
    (chainTable [leafClass, rootClass]).ExtendsDefined ∧
    (chainTable [leafClass, rootClass]).ReachesInterface
      (chainTable [leafClass, rootClass]).signatures "c:Root" ∧
    "c:Root" ∈ ["c:Leaf", "c:Root"] := by
  constructor
  · have hused : (chainTable [userClass, leafClass]).used
        = .ok { objc := ["c:Leaf", "c:Root", "c:User"] } := by cbv
    have hclimbs := ((Table.recorded_interfaces hused).1 "c:Root").1 (by decide)
    rcases hclimbs with ⟨c, hc, husr⟩ | hclimbs
    · have hnone : ∀ c ∈ [userClass, leafClass], c.usr ≠ "c:Root" := by decide
      exact absurd husr (hnone c hc)
    · exact ⟨hused, hclimbs⟩
  · have hused : (chainTable [leafClass, rootClass]).used
        = .ok { objc := ["c:Leaf", "c:Root"] } := by cbv
    have hextends : (chainTable [leafClass, rootClass]).ExtendsDefined := by
      intro d hd children protocols superclass typeParams kind
      rcases List.mem_pair.1 hd with rfl | rfl
      · -- Only the one class has a superclass, and that is the other.
        simp only [leafClass, Decl.implicit, DeclKind.interface.injEq, Option.some.injEq] at kind
        exact ⟨rootClass, by decide +kernel, kind.2.2.1⟩
      · simp [rootClass, Decl.implicit] at kind
    have hroot : (chainTable [leafClass, rootClass]).ReachesInterface
        (chainTable [leafClass, rootClass]).signatures "c:Root" := by
      have hself := returns_self [leafClass, rootClass] List.mem_cons_self
      exact .above (.named hself) rfl rfl
    exact ⟨hused, hextends, hroot, (Table.recorded_interfaces hused).2 hextends _ hroot⟩

/-- **A chain is cut short** if the class comes first that refers to itself: its
superclass is reached, but not recorded, though the order of the classes is all
that has changed. -/
theorem chain_cut_short :
    (chainTable [leafClass, userClass]).used = .ok { objc := ["c:Leaf", "c:User"] } ∧
    (chainTable [leafClass, userClass]).ReachesInterface
      (chainTable [leafClass, userClass]).signatures "c:Root" ∧
    "c:Root" ∉ ["c:Leaf", "c:User"] := by
  have hself := returns_self [leafClass, userClass] List.mem_cons_self
  exact ⟨by cbv, .above (.named hself) rfl rfl, by decide⟩

end ObjcBindings
