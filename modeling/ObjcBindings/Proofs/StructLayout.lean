/-
  ObjcBindings.Proofs.StructLayout
  ────────────────────────────────
  **A STRUCT WITH A LAYOUT HAS A FINITE ONE.**

  A value holds the records that stand in its type below wrappers, typedefs and
  arrays; what stands behind a pointer is not held.  In a plan,

    • a record that an argument, a result or a field holds is planned once, with
      its layout,
    • no struct with a layout holds itself.

  Both are read off one fact: whoever holds a record needs it to cross.
-/
import ObjcBindings.Proofs.ReachedDeclarations
import ObjcBindings.Proofs.WrittenTypes
import Mathlib

namespace ObjcBindings

open Relation (ReflTransGen TransGen)

/-! ## §1. What has to hold. -/

/-- A record with fields. -/
def Decl.hasFields (d : Decl) : Bool :=
  match d.kind with
  | .record fields _ => !fields.isEmpty
  | _ => false

/-- No record with fields is marked as a forward declaration. -/
def TranslationUnit.HasBareRecords (unit : TranslationUnit) : Prop :=
  ∀ d ∈ unit.children, d.isForward = true → d.hasFields = false

/-- Values of the type hold a value of the record. -/
inductive Scope.Holds (s : Scope) (usr : Usr) : TypeExpr → Prop where
  | record : Holds s usr (.record usr)
  | wrapped {w : Wrapper} {inner : TypeExpr} (below : Holds s usr inner) :
      Holds s usr (.wrapped w inner)
  | typedef {name : String} {synonym : Usr} {d : Decl} {type : TypeExpr}
      (found : s.typedef synonym = .ok (d, type)) (below : Holds s usr type) :
      Holds s usr (.typedef name synonym)
  | array {element : TypeExpr} {size : UInt64} (below : Holds s usr element) :
      Holds s usr (.constantArray element size)

namespace Plan

/-- The structs of all modules. -/
def structs (plan : Plan) : List StructPlan :=
  plan.modules.flatMap ModulePlan.structs

/-- The record is planned once, with its layout. -/
def LaysOut (plan : Plan) (usr : Usr) : Prop :=
  ∃ st, plan.structs.filter (·.decl.usr == usr) = [st] ∧ st.isRepresentable = true

/-- A struct that is planned with its layout has a field that holds the
record. -/
def Embeds (plan : Plan) (s : Scope) (inner outer : Usr) : Prop :=
  ∃ st ∈ plan.structs, st.isRepresentable = true ∧ st.decl.usr = outer ∧
    ∃ fields tag, st.decl.kind = .record fields tag ∧ ∃ t ∈ fieldTypes fields, s.Holds inner t

/-- No value of unknown or infinite size is passed or held. -/
structure SoundLayout (plan : Plan) (s : Scope) : Prop where
  /-- Arguments and results hold structs with a layout only. -/
  signatures : ∀ p ∈ plan.modules, ∀ c ∈ p.containers, ∀ m ∈ c.methods, ∀ t ∈ m.types,
    ∀ usr, s.Holds usr t → plan.LaysOut usr
  /-- So do the fields of such structs. -/
  fields : ∀ inner outer, plan.Embeds s inner outer → plan.LaysOut inner
  /-- No struct holds itself, directly or through others. -/
  acyclic : ∀ usr, ¬ TransGen (plan.Embeds s) usr usr

end Plan

/-! ## §2. Whoever holds a record needs it. -/

namespace Scope

variable {s : Scope} {plan : Plan} {p : ModulePlan} {usr : Usr} {t : TypeExpr}

/-- Wrappers hold what is in them. -/
theorem Holds.stripWrappers (h : s.Holds usr t) : s.Holds usr t.stripWrappers := by
  induction h with
  | record => exact .record
  | wrapped _ ih => exact ih
  | typedef found below _ => exact .typedef found below
  | array below _ => exact .array below

/-- A type of a signature that holds a record is carried. -/
theorem Holds.carries (h : s.Holds usr t) {m : Method} (ht : t ∈ m.types) : m.Carries t := by
  rcases List.mem_cons.1 ht with rfl | ht
  · -- A result that is not carried is `void`, which holds nothing.
    refine .result fun hvoid => ?_
    have hstrip := h.stripWrappers
    rw [hvoid] at hstrip
    cases hstrip
  · obtain ⟨p, hp, rfl⟩ := List.mem_map.1 ht
    exact .param hp

/-- Values of truth, selectors and objects hold no record. -/
theorem not_holds_of_idiom {name : String} (h : (Idiom.detect? name t).isSome) :
    ¬ s.Holds usr t := by
  intro hold
  have hstrip := hold.stripWrappers
  -- The shape of an idiom is that of its type below wrappers: a builtin or a pointer.
  have hshape : t.isBoolShape = true ∨ t.isIdShape = true ∨ t.isSelShape = true
      ∨ t.isClassShape = true := by
    unfold Idiom.detect? at h
    grind
  simp only [TypeExpr.isBoolShape, TypeExpr.isIdShape, TypeExpr.isSelShape,
    TypeExpr.isClassShape, TypeExpr.isBuiltin, TypeExpr.isObjectPointerOf] at hshape
  generalize t.stripWrappers = u at hstrip hshape
  cases hstrip <;> simp at hshape

/-- **Whoever holds a record needs it**: a type that crosses by value holds
only records that do so, too, and that are in use. -/
theorem Holds.crosses (hs : s.WellFormed) (h : s.Holds usr t) (hc : s.Crosses .value t)
    (hcovers : s.used.Covers s.table (.type t)) :
    s.Crosses .value (.record usr) ∧ s.used.Covers s.table (.type (.record usr)) ∧
      ReflTransGen s.NeededFor (.value, .record usr) (.value, t) := by
  induction h with
  | record => exact ⟨hc, hcovers, .refl⟩
  | @wrapped w inner below ih =>
      obtain ⟨hcross, hcov, hneeded⟩ :=
        ih (crosses_wrapped_iff.1 hc) (hcovers.of_part List.mem_cons_self)
      exact ⟨hcross, hcov, hneeded.tail .wrapped⟩
  | @typedef name synonym d type found below ih =>
      cases hplain : Idiom.detect? d.name type with
      | some idiom => exact absurd below (not_holds_of_idiom (by rw [hplain]; rfl))
      | none =>
          obtain ⟨hcross, hcov, hneeded⟩ :=
            ih ((crosses_typedef_iff found hplain).1 hc) (hs.covers_typedef found hcovers)
          exact ⟨hcross, hcov, hneeded.tail (.typedef found hplain)⟩
  | @array element size below ih =>
      obtain ⟨hcross, hcov, hneeded⟩ :=
        ih (crosses_array_iff.1 hc) (hcovers.of_part List.mem_cons_self)
      exact ⟨hcross, hcov, hneeded.tail .array⟩

/-! ## §3. No struct is planned twice. -/

theorem stub?_eq_some {d : Decl} (h : s.stub? usr = some d) :
    s.table.find? usr = some d ∧ s.table.isDefined usr = false := by
  unfold stub? at h
  split at h
  · cases h
  · next hundefined => exact ⟨h, by simpa using hundefined⟩

/-- What is only announced has no definition. -/
theorem not_mem_announced (hs : s.WellFormed) {d d' : Decl} (hd : d ∈ s.table.definitions)
    (hd' : d' ∈ s.announced) : d.usr ≠ d'.usr := by
  intro husr
  obtain ⟨usr, _, hstub⟩ := List.mem_filterMap.1 hd'
  obtain ⟨hfind, hundefined⟩ := stub?_eq_some hstub
  rw [← Table.usr_of_find? hfind, ← husr, Table.isDefined,
    hs.table.definition?_of_mem hd] at hundefined
  cases hundefined

/-- What is planned as a struct is what its USR leads to, in its own module. -/
theorem find?_of_mem_structs (hs : s.WellFormed) (hm : s.Modules plan) (hp : p ∈ plan.modules)
    {st : StructPlan} (hst : st ∈ p.structs) :
    s.table.find? st.decl.usr = some st.decl ∧ s.home st.decl = p.name := by
  rw [(hm.finished p hp).structs, mem_draft_structs] at hst
  obtain ⟨hhome, ⟨hd, _⟩ | ⟨hd, _⟩⟩ := hst
  · exact ⟨hs.table.find?_of_mem hd, hhome⟩
  · obtain ⟨usr, _, hstub⟩ := List.mem_filterMap.1 hd
    obtain ⟨hfind, _⟩ := stub?_eq_some hstub
    exact ⟨Table.usr_of_find? hfind ▸ hfind, hhome⟩

/-- Definitions and announced structs have different USRs. -/
theorem nodup_usrs (hs : s.WellFormed) :
    ((s.table.definitions ++ s.announced).map Decl.usr).Nodup := by
  have hsorted : s.used.Sorted :=
    (Table.surveys_of_followContainers hs.used).sorted Used.sorted_empty
  have hused : (s.used.structs.map id).Nodup := by
    rw [List.map_id]
    exact hsorted.structs.imp ne_of_lt
  have hannounced : (s.announced.map Decl.usr).Nodup :=
    hused.sublist (map_filterMap_sublist (fun _ _ hd => Table.usr_of_find? (stub?_eq_some hd).1) _)
  rw [List.map_append]
  refine List.nodup_append.2 ⟨hs.table.distinct, hannounced, ?_⟩
  intro a ha b hb
  obtain ⟨d, hd, rfl⟩ := List.mem_map.1 ha
  obtain ⟨d', hd', rfl⟩ := List.mem_map.1 hb
  exact not_mem_announced hs hd hd'

theorem nodup_draft_structs (hs : s.WellFormed) (name : String) :
    ((s.draft name).structs.map (·.decl.usr)).Nodup := by
  refine (nodup_usrs hs).sublist ?_
  show ((((s.placements.filter (·.module == name)).map Placed.item).filterMap _).map _).Sublist _
  rw [filterMap_items, List.map_append, List.map_append]
  refine .append (map_filterMap_sublist (fun d st h => ?_) _)
    (map_filterMap_sublist (fun d st h => ?_) _)
  · split at h
    · obtain ⟨item, hitem, h⟩ := Option.bind_eq_some_iff.1 h
      split at h
      · cases h
        rw [(item?_eq_struct hitem).1]
      · cases h
    · cases h
  · split at h
    · cases h
      rfl
    · cases h

/-- **No struct is planned twice.** -/
theorem nodup_structs (hs : s.WellFormed) (hm : s.Modules plan) :
    (plan.structs.map (·.decl.usr)).Nodup := by
  rw [Plan.structs, List.map_flatMap, List.nodup_flatMap]
  constructor
  · intro p hp
    rw [(hm.finished p hp).structs]
    exact nodup_draft_structs hs p.name
  · have hnames := List.pairwise_map.1 hm.nodup_names
    refine hnames.imp_of_mem fun {p q} hp hq hne usr hp' hq' => hne ?_
    -- A USR in both modules leads to one declaration, which has one home.
    obtain ⟨st, hst, rfl⟩ := List.mem_map.1 hp'
    obtain ⟨st', hst', husr⟩ := List.mem_map.1 hq'
    obtain ⟨hfind, hhome⟩ := find?_of_mem_structs hs hm hp hst
    obtain ⟨hfind', hhome'⟩ := find?_of_mem_structs hs hm hq hst'
    rw [husr, hfind] at hfind'
    injection hfind' with hdecl
    rw [← hhome, ← hhome', hdecl]

/-! ## §4. Layouts. -/

/-- A record with fields that is found is a definition. -/
theorem mem_of_record (hb : ∀ d ∈ s.table.stubs, d.hasFields = false) {d : Decl}
    {fields : List Decl} {tag : TagKind} (found : s.record usr = .ok (d, fields, tag))
    (full : fields ≠ []) : d ∈ s.table.definitions := by
  obtain ⟨hf, hk⟩ := record_eq_ok_iff.1 found
  rcases Table.mem_of_find? hf with hm | ⟨hm, _⟩
  · exact hm
  · have := hb d hm
    simp [Decl.hasFields, hk, full] at this

/-- **A record in use that crosses by value is planned once, with its
layout.** -/
theorem laysOut_of_crosses (hs : s.WellFormed) (hb : ∀ d ∈ s.table.stubs, d.hasFields = false)
    (hplan : s.plan = .ok plan) (hc : s.Crosses .value (.record usr))
    (hcovers : s.used.Covers s.table (.type (.record usr))) : plan.LaysOut usr := by
  have hm := modules_of_plan hs hplan
  cases hc with
  | @record _ d fields tag found tagged full plain below =>
      have hd := mem_of_record hb found full
      obtain ⟨hfind, hk⟩ := record_eq_ok_iff.1 found
      obtain rfl := Table.usr_of_find? hfind
      have hused : s.used.Has (.struct d.usr) :=
        hcovers _ (.self (.struct (Table.find_eq_ok_iff.2 hfind) hk tagged))
      obtain ⟨_, p, hp, st, hst, rfl⟩ := mem_structs_of_used hs hplan hfind hk hused
      have hmem : st ∈ plan.structs := List.mem_flatMap.2 ⟨p, hp, hst⟩
      refine ⟨st, filter_key_eq_singleton (nodup_structs hs hm) hmem, ?_⟩
      rw [(hm.finished p hp).structs, mem_draft_structs] at hst
      obtain ⟨_, ⟨_, hitem⟩ | ⟨hannounced, _⟩⟩ := hst
      · exact (item?_eq_struct hitem).2.2.2 (.record found tagged full plain below)
      · exact absurd rfl (not_mem_announced hs hd hannounced)

/-- What a struct with a layout holds is one of the types it needs. -/
theorem needed_of_embeds (hs : s.WellFormed) (hm : s.Modules plan) {inner outer : Usr}
    (h : plan.Embeds s inner outer) :
    s.Crosses .value (.record inner) ∧ s.used.Covers s.table (.type (.record inner)) ∧
      TransGen s.NeededFor (.value, .record inner) (.value, .record outer) := by
  obtain ⟨st, hst, hr, rfl, fields, tag, hk, t, ht, holds⟩ := h
  obtain ⟨p, hp, hst⟩ := List.mem_flatMap.1 hst
  obtain ⟨hcross, hcovers⟩ := crosses_of_field hs hm hp hst hr hk ht
  obtain ⟨hinner, hused, hneeded⟩ := holds.crosses hs hcross hcovers
  have hfound : s.record st.decl.usr = .ok (st.decl, fields, tag) :=
    record_eq_ok_iff.2 ⟨(find?_of_mem_structs hs hm hp hst).1, hk⟩
  exact ⟨hinner, hused, .tail' hneeded (.record hfound ht)⟩

/-- **The layouts of a plan are sound.** -/
theorem plan_soundLayout {unit : TranslationUnit} {rules : List ModuleRule}
    (hb : unit.HasBareRecords) (hunit : ofUnit unit rules = .ok s) (hplan : s.plan = .ok plan) :
    plan.SoundLayout s := by
  have hs := wellFormed_of_ofUnit hunit
  have hm := modules_of_plan hs hplan
  have hstubs : ∀ d ∈ s.table.stubs, d.hasFields = false := by
    intro d hd
    obtain ⟨hmem, hstub⟩ := isStub_of_ofUnit hunit hd
    rcases Bool.or_eq_true_iff.1 hstub with hf | hk
    · exact hb d hmem hf
    · unfold Decl.hasFields
      cases hkind : d.kind <;> simp_all
  refine ⟨?signatures, ?fields, ?acyclic⟩
  case signatures =>
    intro p hp c hc m hmethod t ht usr holds
    obtain ⟨hcross, hcovers⟩ :=
      crosses_of_signature hs hm hp hc hmethod (holds.carries ht)
    obtain ⟨hrecord, hused, _⟩ := holds.crosses hs hcross hcovers
    exact laysOut_of_crosses hs hstubs hplan hrecord hused
  case fields =>
    intro inner outer h
    obtain ⟨hcross, hcovers, _⟩ := needed_of_embeds hs hm h
    exact laysOut_of_crosses hs hstubs hplan hcross hcovers
  case acyclic =>
    intro usr hcycle
    have hneeded : TransGen s.NeededFor (.value, .record usr) (.value, .record usr) :=
      hcycle.lift' (fun usr => (Use.value, TypeExpr.record usr)) fun _ _ h =>
        (needed_of_embeds hs hm h).2.2
    -- Some struct holds the record, so it crosses; but a type that needs itself does not.
    obtain ⟨outer, h, _⟩ := TransGen.head'_iff.1 hcycle
    exact not_crosses_of_cycle hneeded (needed_of_embeds hs hm h).1

end Scope

/-! ## §5. A small unit. -/

/-- A struct that holds an array of others through a typedef and points to
itself, and two structs that hold each other.  One method passes the first by
value and one only points to the others. -/
def viewUnit : TranslationUnit where
  children :=
    [.implicit "s:Point" "Point" (.record
       [.implicit "x" "x" (.field (.builtin "Double") none)] .struct),
     .implicit "t:Point" "Point" (.typedef (.record "s:Point")),
     .implicit "s:Frame" "Frame" (.record
       [.implicit "corners" "corners" (.field (.constantArray (.ofName "Point") 2) none),
        .implicit "next" "next" (.field (.pointer (.record "s:Frame")) none)] .struct),
     .implicit "s:Egg" "Egg" (.record
       [.implicit "hen" "hen" (.field (.record "s:Hen") none)] .struct),
     .implicit "s:Hen" "Hen" (.record
       [.implicit "egg" "egg" (.field (.record "s:Egg") none)] .struct),
     .implicit "c:View" "View" (.interface
       [.ofMethod "move:" [.ofName "Point"] (.record "s:Frame"),
        .ofMethod "hatch:" [.pointer (.record "s:Egg")] (.builtin "Void")] [] none [])]

/-- Only the structs that hold each other have no layout. -/
theorem view_soundLayout :
    viewUnit.HasBareRecords ∧
      ∃ s plan, Scope.ofUnit viewUnit uiRules = .ok s ∧ s.plan = .ok plan ∧
        plan.structs.map (fun st => (st.decl.usr, st.isRepresentable))
          = [("s:Point", true), ("s:Frame", true), ("s:Egg", false), ("s:Hen", false)] ∧
        plan.SoundLayout s := by
  have hbare : viewUnit.HasBareRecords := by
    show ∀ d ∈ viewUnit.children, d.isForward = true → d.hasFields = false
    decide
  have hstructs : ((Scope.ofUnit viewUnit uiRules >>= Scope.plan).map fun plan =>
      plan.structs.map fun st => (st.decl.usr, st.isRepresentable))
        = .ok [("s:Point", true), ("s:Frame", true), ("s:Egg", false), ("s:Hen", false)] := by
    cbv
  obtain ⟨plan, hplan, hstructs⟩ := map_eq_ok_iff.1 hstructs
  obtain ⟨s, hunit, hplan⟩ := bind_eq_ok_iff.1 hplan
  exact ⟨hbare, s, plan, hunit, hplan, hstructs, Scope.plan_soundLayout hbare hunit hplan⟩

end ObjcBindings
