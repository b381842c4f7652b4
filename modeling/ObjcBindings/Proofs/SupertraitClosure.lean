/-
  ObjcBindings.Proofs.SupertraitClosure
  ────────────────────────────────
  **THE CLOSURE LISTS WHAT IS ABOVE, AND LISTS IT ONCE.**

  `closure` walks upwards from some containers and enters no container whose
  safe trait is listed.  It is a row of four kinds of steps (`Walks`), and
  cycles and diamonds do no harm:

    • `Walks.mem_or` — whatever is listed was there before, or is a trait of a
      container above the start,
    • `nodup_closure` — no trait is listed twice,
    • `mem_closure_iff` — if no two containers share a safe trait, exactly the
      traits of the containers above are added.

  The same is then said of the passes over categories, which make a class
  implement only what it does not implement yet.
-/
import ObjcBindings.Bindings.Plan
import Mathlib.Data.List.Nodup

namespace ObjcBindings

/-! ## §1. Names of traits. -/

namespace ContainerKind

/-- The last letter of a trait's name tells its kind. -/
theorem getLast?_append_suffix (name : String) (kind : ContainerKind) :
    (name ++ kind.suffix).toList.getLast?
      = some (match kind with | .interface => 'e' | .protocol => 'l' | .category => 'y') := by
  cases kind <;> simp [suffix]

/-- A trait's name tells the name and the kind that it is made of. -/
theorem append_suffix_inj {name name' : String} {kind kind' : ContainerKind}
    (h : name ++ kind.suffix = name' ++ kind'.suffix) : name = name' ∧ kind = kind' := by
  have hlast := congrArg (fun x => x.toList.getLast?) h
  simp only [getLast?_append_suffix, Option.some.injEq] at hlast
  have hkind : kind = kind' := by
    cases kind <;> cases kind' <;> first | rfl | exact absurd hlast (by decide)
  subst hkind
  exact ⟨(String.append_left_inj _).1 h, rfl⟩

end ContainerKind

namespace TraitRef

/-- A safe trait tells the module, the name and the kind. -/
theorem safe_inj {m m' n n' : String} {k k' : ContainerKind}
    (h : TraitRef.safe m n k = .safe m' n' k') : m = m' ∧ n = n' ∧ k = k' := by
  injection h with hm hn
  exact ⟨hm, ContainerKind.append_suffix_inj hn⟩

theorem raw_inj {m m' n n' : String} {k k' : ContainerKind}
    (h : TraitRef.raw m n k = .raw m' n' k') : m = m' ∧ n = n' ∧ k = k' := by
  injection h with hm hn
  exact ⟨hm, ContainerKind.append_suffix_inj ((String.append_left_inj _).1 hn)⟩

/-- No safe trait is a raw trait. -/
theorem safe_ne_raw {m m' n n' : String} {k k' : ContainerKind} :
    TraitRef.safe m n k ≠ .raw m' n' k' := by
  intro h
  injection h with _ hn
  have hlast := congrArg (fun x => x.toList.getLast?) hn
  simp only [ContainerKind.getLast?_append_suffix] at hlast
  cases k <;> simp at hlast

end TraitRef

/-! ## §2. What is above a container. -/

namespace SupertraitNode

/-- The trait is one of the container's two. -/
def Has (n : SupertraitNode) (t : TraitRef) : Prop := t = n.raw ∨ t = n.safe

end SupertraitNode

namespace Supertraits

variable {nodes : Supertraits}

/-- The container is that of the USR, or stands above it. -/
inductive Reaches (nodes : Supertraits) : Usr → SupertraitNode → Prop where
  | self {usr : Usr} {n : SupertraitNode} (found : nodes.node? usr = some n) :
      Reaches nodes usr n
  | above {usr usr' : Usr} {n n' : SupertraitNode} (found : nodes.node? usr = some n)
      (direct : usr' ∈ n.above) (rest : Reaches nodes usr' n') : Reaches nodes usr n'

/-- A USR from which something is reached leads to a node. -/
theorem Reaches.exists_node? {usr : Usr} {n : SupertraitNode} (h : nodes.Reaches usr n) :
    ∃ m, nodes.node? usr = some m := by
  cases h with
  | self found => exact ⟨_, found⟩
  | above found _ _ => exact ⟨_, found⟩

/-- A walk over the USRs of `todo`, from the traits listed before it to those
listed at its end. -/
inductive Walks (nodes : Supertraits) : List Usr → List TraitRef → List TraitRef → Prop where
  | done {listed : List TraitRef} : Walks nodes [] listed listed
  | absent {usr : Usr} {rest : List Usr} {listed result : List TraitRef}
      (missing : nodes.node? usr = none) (after : Walks nodes rest listed result) :
      Walks nodes (usr :: rest) listed result
  | known {usr : Usr} {rest : List Usr} {listed result : List TraitRef} {n : SupertraitNode}
      (found : nodes.node? usr = some n) (old : n.safe ∈ listed)
      (after : Walks nodes rest listed result) : Walks nodes (usr :: rest) listed result
  | enter {usr : Usr} {rest : List Usr} {listed result : List TraitRef} {n : SupertraitNode}
      (found : nodes.node? usr = some n) (new : n.safe ∉ listed)
      (after : Walks nodes (n.above ++ rest) (listed ++ [n.raw, n.safe]) result) :
      Walks nodes (usr :: rest) listed result

/-- **The closure is such a walk.** -/
theorem walks_closure (todo : List Usr) (listed : List TraitRef) :
    nodes.Walks todo listed (nodes.closure todo listed) := by
  refine closure.induct nodes
    (fun todo listed => nodes.Walks todo listed (nodes.closure todo listed))
    ?done ?absent ?known ?enter todo listed
  case done =>
    intro listed
    rw [closure]
    exact .done
  case absent =>
    intro listed usr rest missing ih
    have hstep : nodes.closure (usr :: rest) listed = nodes.closure rest listed := by
      rw [closure]
      grind
    rw [hstep]
    exact .absent missing ih
  case known =>
    intro listed usr rest n found old ih
    have hstep : nodes.closure (usr :: rest) listed = nodes.closure rest listed := by
      rw [closure]
      grind
    rw [hstep]
    exact .known found old ih
  case enter =>
    intro listed usr rest n found new ih
    have hstep : nodes.closure (usr :: rest) listed
        = nodes.closure (n.above ++ rest) (listed ++ [n.raw, n.safe]) := by
      rw [closure]
      grind
    rw [hstep]
    exact .enter found new ih

/-- **Only traits from above are added.** -/
theorem Walks.mem_or {todo : List Usr} {listed result : List TraitRef} {t : TraitRef}
    (h : nodes.Walks todo listed result) (ht : t ∈ result) :
    t ∈ listed ∨ ∃ usr ∈ todo, ∃ n, nodes.Reaches usr n ∧ n.Has t := by
  induction h with
  | done => exact .inl ht
  | absent _ _ ih | known _ _ _ ih =>
      rcases ih ht with hl | ⟨x, hx, n, hn⟩
      · exact .inl hl
      · exact .inr ⟨x, List.mem_cons_of_mem _ hx, n, hn⟩
  | enter found _ _ ih =>
      rcases ih ht with hl | ⟨x, hx, m, hm, ht⟩
      · -- Listed before, or one of the two traits of the container entered.
        rcases List.mem_append.1 hl with hl | hl
        · exact .inl hl
        · exact .inr ⟨_, List.mem_cons_self, _, .self found, by simpa [SupertraitNode.Has] using hl⟩
      · rcases List.mem_append.1 hx with hx | hx
        · exact .inr ⟨_, List.mem_cons_self, m, .above found hx hm, ht⟩
        · exact .inr ⟨x, List.mem_cons_of_mem _ hx, m, hm, ht⟩

/-- A walk takes nothing off the list. -/
theorem Walks.subset {todo : List Usr} {listed result : List TraitRef}
    (h : nodes.Walks todo listed result) : listed ⊆ result := by
  induction h with
  | done => exact List.Subset.refl _
  | absent _ _ ih | known _ _ _ ih => exact ih
  | enter _ _ _ ih => exact fun t ht => ih (List.mem_append_left _ ht)

/-! ## §3. Nothing is listed twice. -/

/-- No trait stands twice, and no raw trait of a container without its safe
one. -/
structure Paired (nodes : Supertraits) (listed : List TraitRef) : Prop where
  nodup : listed.Nodup
  safe_of_raw : ∀ n ∈ nodes, n.raw ∈ listed → n.safe ∈ listed

/-- What a USR leads to is a node. -/
theorem mem_of_node? {usr : Usr} {n : SupertraitNode} (h : nodes.node? usr = some n) :
    n ∈ nodes :=
  List.mem_of_find?_eq_some h

/-- Entering a container adds both of its traits. -/
theorem Paired.enter {listed : List TraitRef} (h : nodes.Paired listed) {n : SupertraitNode}
    (hn : n ∈ nodes) (hnew : n.safe ∉ listed) : nodes.Paired (listed ++ [n.raw, n.safe]) := by
  -- The search looks for the safe trait only; the raw one is then new as well.
  have hraw : n.raw ∉ listed := fun hmem => hnew (h.safe_of_raw n hn hmem)
  have hne : n.raw ≠ n.safe := fun he => TraitRef.safe_ne_raw he.symm
  constructor
  · rw [List.nodup_append]
    refine ⟨h.nodup, by simp [hne], ?_⟩
    intro a ha b hb
    rcases List.mem_cons.1 hb with rfl | hb
    · exact fun he => hraw (he ▸ ha)
    · rw [List.mem_singleton.1 hb]
      exact fun he => hnew (he ▸ ha)
  · intro m hm hmem
    rcases List.mem_append.1 hmem with hl | hl
    · exact List.mem_append_left _ (h.safe_of_raw m hm hl)
    · -- A raw trait that is new is that of `n`, so the safe trait is too.
      rcases List.mem_cons.1 hl with he | hl
      · obtain ⟨hmodule, hname, hkind⟩ := TraitRef.raw_inj he
        have hsafe : m.safe = n.safe := by
          rw [SupertraitNode.safe, SupertraitNode.safe, hmodule, hname, hkind]
        rw [hsafe]
        simp
      · exact absurd (List.mem_singleton.1 hl).symm TraitRef.safe_ne_raw

/-- **No trait is listed twice.** -/
theorem Walks.paired {todo : List Usr} {listed result : List TraitRef}
    (h : nodes.Walks todo listed result) (hl : nodes.Paired listed) : nodes.Paired result := by
  induction h with
  | done => exact hl
  | absent _ _ ih | known _ _ _ ih => exact ih hl
  | enter found new _ ih => exact ih (hl.enter (mem_of_node? found) new)

/-- The closure of some containers lists nothing twice. -/
theorem nodup_closure (todo : List Usr) : (nodes.closure todo []).Nodup :=
  ((walks_closure todo []).paired ⟨List.nodup_nil, by simp⟩).nodup

/-! ## §4. Everything above is listed. -/

/-- No two containers share a safe trait. -/
def Distinct (nodes : Supertraits) : Prop :=
  ∀ n ∈ nodes, ∀ m ∈ nodes, n.safe = m.safe → n = m

/-- What is directly above a listed container is listed or still to be
entered. -/
def ClosedUpTo (nodes : Supertraits) (todo : List Usr) (listed : List TraitRef) : Prop :=
  ∀ n ∈ nodes, n.safe ∈ listed → n.raw ∈ listed ∧
    ∀ usr ∈ n.above, ∀ m, nodes.node? usr = some m → m.safe ∈ listed ∨ usr ∈ todo

/-- A container to be entered may be dropped once it is listed. -/
theorem ClosedUpTo.drop {usr : Usr} {rest : List Usr} {listed : List TraitRef}
    (h : nodes.ClosedUpTo (usr :: rest) listed)
    (hdone : ∀ m, nodes.node? usr = some m → m.safe ∈ listed) :
    nodes.ClosedUpTo rest listed := by
  intro n hn hlisted
  obtain ⟨hraw, habove⟩ := h n hn hlisted
  refine ⟨hraw, fun u hu m hm => ?_⟩
  rcases habove u hu m hm with hl | hu
  · exact .inl hl
  · rcases List.mem_cons.1 hu with rfl | hu
    · exact .inl (hdone m hm)
    · exact .inr hu

/-- Entering a container leaves what is above it to be entered. -/
theorem ClosedUpTo.enter (hd : nodes.Distinct) {usr : Usr} {rest : List Usr}
    {listed : List TraitRef} {n : SupertraitNode} (hn : nodes.node? usr = some n)
    (h : nodes.ClosedUpTo (usr :: rest) listed) :
    nodes.ClosedUpTo (n.above ++ rest) (listed ++ [n.raw, n.safe]) := by
  intro m hm hlisted
  by_cases hold : m.safe ∈ listed
  · obtain ⟨hraw, habove⟩ := h m hm hold
    refine ⟨List.mem_append_left _ hraw, fun u hu x hx => ?_⟩
    rcases habove u hu x hx with hl | hu
    · exact .inl (List.mem_append_left _ hl)
    · rcases List.mem_cons.1 hu with rfl | hu
      · -- The container entered is the one that was still missing.
        have hxn : x = n := Option.some.inj (hx.symm.trans hn)
        exact .inl (by simp [hxn])
      · exact .inr (List.mem_append_right _ hu)
  · -- A safe trait that is new is that of `n`, and no other container has it.
    have hnew : m.safe = n.safe := by
      rcases List.mem_append.1 hlisted with hl | hl
      · exact absurd hl hold
      · rcases List.mem_cons.1 hl with he | hl
        · exact absurd he TraitRef.safe_ne_raw
        · exact List.mem_singleton.1 hl
    have hmn : m = n := hd m hm n (mem_of_node? hn) hnew
    subst hmn
    exact ⟨by simp, fun u hu x _ => .inr (List.mem_append_left _ hu)⟩

/-- The end of a walk is closed, and all that had to be entered is listed. -/
theorem Walks.closed (hd : nodes.Distinct) {todo : List Usr} {listed result : List TraitRef}
    (h : nodes.Walks todo listed result) (hl : nodes.ClosedUpTo todo listed) :
    nodes.ClosedUpTo [] result ∧
      ∀ usr ∈ todo, ∀ n, nodes.node? usr = some n → n.safe ∈ result := by
  induction h with
  | done => exact ⟨hl, by simp⟩
  | absent missing _ ih =>
      obtain ⟨hclosed, hentered⟩ := ih (hl.drop (by simp [missing]))
      exact ⟨hclosed, List.forall_mem_cons.2 ⟨by simp [missing], hentered⟩⟩
  | @known usr _ listed _ n found old after ih =>
      have hdone : ∀ m, nodes.node? usr = some m → m.safe ∈ listed := by
        intro m hm
        rw [← Option.some.inj (found.symm.trans hm)]
        exact old
      obtain ⟨hclosed, hentered⟩ := ih (hl.drop hdone)
      exact ⟨hclosed, List.forall_mem_cons.2 ⟨fun m hm => after.subset (hdone m hm), hentered⟩⟩
  | enter found _ after ih =>
      -- The container is listed now, and what is above it is next.
      obtain ⟨hclosed, hentered⟩ := ih (hl.enter hd found)
      refine ⟨hclosed, List.forall_mem_cons.2 ⟨fun m hm => ?_, fun u hu => ?_⟩⟩
      · rw [← Option.some.inj (found.symm.trans hm)]
        exact after.subset (by simp)
      · exact hentered u (List.mem_append_right _ hu)

/-- A closed list that has the start has everything above it. -/
theorem Reaches.mem_of_closed {listed : List TraitRef} {usr : Usr} {n : SupertraitNode}
    (h : nodes.Reaches usr n) (hc : nodes.ClosedUpTo [] listed)
    (hstart : ∀ m, nodes.node? usr = some m → m.safe ∈ listed) : n.safe ∈ listed := by
  induction h with
  | self found => exact hstart _ found
  | above found direct _ ih =>
      refine ih fun m hm => ?_
      have hdirect := (hc _ (mem_of_node? found) (hstart _ found)).2 _ direct m hm
      exact hdirect.resolve_right List.not_mem_nil

/-- What is reached is a node. -/
theorem Reaches.mem {usr : Usr} {n : SupertraitNode} (h : nodes.Reaches usr n) : n ∈ nodes := by
  induction h with
  | self found => exact mem_of_node? found
  | above _ _ _ ih => exact ih

/-- One more step upwards. -/
theorem Reaches.step {usr usr' : Usr} {n m : SupertraitNode} (h : nodes.Reaches usr n)
    (direct : usr' ∈ n.above) (found : nodes.node? usr' = some m) : nodes.Reaches usr m := by
  induction h with
  | self found' => exact .above found' direct (.self found)
  | above found' direct' _ ih => exact .above found' direct' (ih direct)

/-- **The closure adds exactly the traits of the containers above.** -/
theorem mem_closure_iff (hd : nodes.Distinct) {todo : List Usr} {listed : List TraitRef}
    (h : nodes.ClosedUpTo todo listed) {t : TraitRef} :
    t ∈ nodes.closure todo listed ↔
      t ∈ listed ∨ ∃ usr ∈ todo, ∃ n, nodes.Reaches usr n ∧ n.Has t := by
  have hwalk := nodes.walks_closure todo listed
  refine ⟨hwalk.mem_or, ?_⟩
  obtain ⟨hclosed, hentered⟩ := hwalk.closed hd h
  rintro (hl | ⟨usr, husr, n, hn, ht⟩)
  · exact hwalk.subset hl
  · have hsafe := hn.mem_of_closed hclosed (hentered usr husr)
    rcases ht with rfl | rfl
    · exact (hclosed n hn.mem hsafe).1
    · exact hsafe

end Supertraits

/-! ## §5. What categories add. -/

/-- **A class claims each candidate that it does not implement yet, once**, and
implements all candidates afterwards. -/
theorem claimTraits_spec (usr : Usr) (ts : List TraitRef) :
    ∀ done : Implemented,
      (claimTraits usr ts done).1.Nodup ∧
      (∀ t, t ∈ (claimTraits usr ts done).1 ↔ t ∈ ts ∧ (usr, t) ∉ done) ∧
      ∀ x, x ∈ (claimTraits usr ts done).2 ↔ x ∈ done ∨ x.1 = usr ∧ x.2 ∈ ts := by
  induction ts with
  | nil => simp [claimTraits]
  | cons t ts ih =>
      intro done
      unfold claimTraits
      by_cases h : (usr, t) ∈ done
      · -- Implemented already: the candidate changes nothing.
        rw [if_pos h]
        obtain ⟨hnodup, hmem, hdone⟩ := ih done
        refine ⟨hnodup, fun x => ?_, fun x => ?_⟩
        · rw [hmem, List.mem_cons]
          grind
        · rw [hdone, List.mem_cons]
          grind
      · -- Claimed now, so that a later mention of it finds it implemented.
        rw [if_neg h]
        obtain ⟨hnodup, hmem, hdone⟩ := ih ((usr, t) :: done)
        refine ⟨List.nodup_cons.2 ⟨?_, hnodup⟩, fun x => ?_, fun x => ?_⟩
        · rw [hmem]
          simp
        · show x ∈ t :: (claimTraits usr ts ((usr, t) :: done)).1 ↔ _
          rw [List.mem_cons, hmem, List.mem_cons]
          grind
        · show x ∈ (claimTraits usr ts ((usr, t) :: done)).2 ↔ _
          rw [hdone, List.mem_cons, List.mem_cons]
          grind

/-- What the containers of a USR make its class implement. -/
def implsOfUsr (usr : Usr) (cs : List Container) : List TraitRef :=
  (cs.filter (·.decl.usr == usr)).flatMap Container.impls

/-- What the first container implements comes first. -/
theorem implsOfUsr_cons (usr : Usr) (c : Container) (cs : List Container) :
    implsOfUsr usr (c :: cs)
      = (if c.decl.usr = usr then c.impls else []) ++ implsOfUsr usr cs := by
  unfold implsOfUsr
  by_cases h : c.decl.usr = usr
  · rw [List.filter_cons_of_pos (by simpa using h), if_pos h, List.flatMap_cons]
  · rw [List.filter_cons_of_neg (by simpa using h), if_neg h, List.nil_append]

/-- Containers in a row implement one after the other. -/
theorem implsOfUsr_append (usr : Usr) (cs ds : List Container) :
    implsOfUsr usr (cs ++ ds) = implsOfUsr usr cs ++ implsOfUsr usr ds := by
  unfold implsOfUsr
  rw [List.filter_append, List.flatMap_append]

namespace Supertraits

variable (nodes : Supertraits)

/-- Some category of the list could make the class implement the trait. -/
def Offers (module : String) (cs : List Container) (usr : Usr) (t : TraitRef) : Prop :=
  ∃ c ∈ cs, c.decl.usr = usr ∧ t ∈ nodes.categoryTraits module c

/-- Some category offers a trait if the first does or another. -/
theorem offers_cons_iff {module : String} {c : Container} {cs : List Container} {usr : Usr}
    {t : TraitRef} : nodes.Offers module (c :: cs) usr t ↔
      (c.decl.usr = usr ∧ t ∈ nodes.categoryTraits module c) ∨ nodes.Offers module cs usr t := by
  unfold Offers
  simp

/-- **The categories of a module claim each trait that is offered and not
implemented yet, once.** -/
theorem finishCategories_claims (module : String) (usr : Usr) (cs : List Container) :
    ∀ done : Implemented,
      (implsOfUsr usr (nodes.finishCategories module cs done).1).Nodup ∧
      (∀ t, t ∈ implsOfUsr usr (nodes.finishCategories module cs done).1 ↔
        nodes.Offers module cs usr t ∧ (usr, t) ∉ done) ∧
      ∀ t, (usr, t) ∈ (nodes.finishCategories module cs done).2 ↔
        (usr, t) ∈ done ∨ nodes.Offers module cs usr t := by
  induction cs with
  | nil => simp [finishCategories, implsOfUsr, Offers]
  | cons c cs ih =>
      intro done
      obtain ⟨hone, hmem₁, hdone₁⟩ :=
        claimTraits_spec c.decl.usr (nodes.categoryTraits module c) done
      obtain ⟨hrest, hmem, hdone⟩ :=
        ih (claimTraits c.decl.usr (nodes.categoryTraits module c) done).2
      have himpls : implsOfUsr usr (nodes.finishCategories module (c :: cs) done).1
          = (if c.decl.usr = usr then
              (claimTraits c.decl.usr (nodes.categoryTraits module c) done).1 else [])
            ++ implsOfUsr usr (nodes.finishCategories module cs
              (claimTraits c.decl.usr (nodes.categoryTraits module c) done).2).1 :=
        implsOfUsr_cons usr (nodes.finishCategory module c done).1 _
      have hsnd : (nodes.finishCategories module (c :: cs) done).2
          = (nodes.finishCategories module cs
              (claimTraits c.decl.usr (nodes.categoryTraits module c) done).2).2 := rfl
      rw [himpls, hsnd]
      by_cases hu : c.decl.usr = usr
      · subst hu
        rw [if_pos rfl]
        refine ⟨?_, fun t => ?_, fun t => ?_⟩
        · rw [List.nodup_append]
          refine ⟨hone, hrest, ?_⟩
          -- What this category claims is implemented when the next ones come.
          rintro t ht t' ht' rfl
          have htaken := (hdone₁ (c.decl.usr, t)).2 (.inr ⟨rfl, ((hmem₁ t).1 ht).1⟩)
          exact ((hmem t).1 ht').2 htaken
        · rw [List.mem_append, hmem₁, hmem, offers_cons_iff, hdone₁]
          grind
        · rw [hdone, hdone₁, offers_cons_iff]
          grind
      · -- A category of another class claims nothing for this one.
        rw [if_neg hu, List.nil_append]
        refine ⟨hrest, fun t => ?_, fun t => ?_⟩
        · rw [hmem, offers_cons_iff, hdone₁]
          grind
        · rw [hdone, hdone₁, offers_cons_iff]
          grind

/-- **The categories of all modules claim each trait that is offered and not
implemented yet, once.** -/
theorem finishModules_claims (usr : Usr) (ms : List ModulePlan) :
    ∀ done : Implemented,
      (implsOfUsr usr ((nodes.finishModules ms done).flatMap ModulePlan.categories)).Nodup ∧
      ∀ t, t ∈ implsOfUsr usr ((nodes.finishModules ms done).flatMap ModulePlan.categories) ↔
        (∃ p ∈ ms, nodes.Offers p.name p.categories usr t) ∧ (usr, t) ∉ done := by
  induction ms with
  | nil => simp [finishModules, implsOfUsr]
  | cons p ps ih =>
      intro done
      obtain ⟨hone, hmem₁, hdone₁⟩ := nodes.finishCategories_claims p.name usr p.categories done
      obtain ⟨hrest, hmem⟩ := ih (nodes.finishCategories p.name p.categories done).2
      have himpls : implsOfUsr usr
            ((nodes.finishModules (p :: ps) done).flatMap ModulePlan.categories)
          = implsOfUsr usr (nodes.finishCategories p.name p.categories done).1
            ++ implsOfUsr usr ((nodes.finishModules ps
              (nodes.finishCategories p.name p.categories done).2).flatMap
                ModulePlan.categories) :=
        implsOfUsr_append usr _ _
      rw [himpls]
      refine ⟨?_, fun t => ?_⟩
      · rw [List.nodup_append]
        refine ⟨hone, hrest, ?_⟩
        -- What one module claims is implemented when the next module comes.
        rintro t ht t' ht' rfl
        exact ((hmem t).1 ht').2 ((hdone₁ t).2 (.inr ((hmem₁ t).1 ht).1))
      · rw [List.mem_append, hmem₁, hmem, hdone₁]
        grind

end Supertraits

end ObjcBindings
