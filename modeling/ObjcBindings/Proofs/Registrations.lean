/-
  ObjcBindings.Proofs.Registrations
  ────────────────────────────────
  **THE TABLE AFTER ANY RUN OF REGISTRATIONS.**

  A registration may be refused; then the table stays as it was, and the run
  goes on.  Whatever declarations come in whatever order, the table that such a
  run leaves behind is a function of the run, said here without a table:

      definitions   — the first definition of each USR, in order
      find          — the first definition of the USR, else its first stub
      named?        — the last entry with the property, else its first stub
      register      — refuses what contradicts the entry of its USR

  Main results:
    • `definitions_attempt`, `stubs_attempt`, `definition?_attempt`,
      `named?_attempt` — what one attempt does to each of the lists and
      look-ups,
    • `holds_afterAll` — what a run leaves behind, for every run.
-/
import ObjcBindings.Proofs.RedundantDeclarations
import ObjcBindings.Proofs.Placement
import Mathlib.Data.List.Induction

namespace ObjcBindings

/-! ## §1. First and last occurrences. -/

section Occurrences

variable {p : Decl → Bool} {ds : List Decl} {d : Decl}

/-- `d` has the property, and nothing before it in the list has. -/
def IsFirst (p : Decl → Bool) (ds : List Decl) (d : Decl) : Prop :=
  p d = true ∧ ∃ before after, ds = before ++ d :: after ∧ ∀ x ∈ before, p x = false

/-- `d` has the property, and nothing after it in the list has. -/
def IsLast (p : Decl → Bool) (ds : List Decl) (d : Decl) : Prop :=
  p d = true ∧ ∃ before after, ds = before ++ d :: after ∧ ∀ x ∈ after, p x = false

/-- A search finds the first with the property. -/
theorem find?_eq_some_iff_isFirst : ds.find? p = some d ↔ IsFirst p ds d := by
  rw [List.find?_eq_some_iff_append, IsFirst]
  simp only [Bool.not_eq_true']

/-- A search from the end finds the last. -/
theorem find?_reverse_eq_some_iff_isLast : ds.reverse.find? p = some d ↔ IsLast p ds d := by
  rw [find?_eq_some_iff_isFirst, IsFirst, IsLast]
  refine and_congr_right fun _ => ⟨?_, ?_⟩
  · rintro ⟨before, after, hds, hbefore⟩
    refine ⟨after.reverse, before.reverse, ?_, by simpa using hbefore⟩
    rw [← ds.reverse_reverse, hds]
    simp
  · rintro ⟨before, after, rfl, hafter⟩
    exact ⟨after.reverse, before.reverse, by simp, by simpa using hafter⟩

end Occurrences

namespace Decl

/-- The declaration has the USR and is a stub. -/
def announces (d : Decl) (usr : Usr) : Bool := d.isStub && d.usr == usr

/-- The declaration is the interface of a name. -/
def isInterfaceNamed (d : Decl) (name : String) : Bool := d.isInterface && d.name == name

/-- The declaration is the protocol of a name. -/
def isProtocolNamed (d : Decl) (name : String) : Bool := d.isProtocol && d.name == name

end Decl

namespace Table

/-! ## §2. One attempt. -/

/-- Add a declaration, or keep the table as it is if the declaration is
refused. -/
def attempt (t : Table) (d : Decl) : Table :=
  match t.register d with
  | .ok t' => t'
  | .error _ => t

/-- The table after the declarations, added to an empty one in order. -/
def afterAll (ds : List Decl) : Table := ds.foldl attempt {}

variable {t t' : Table} {d : Decl}

/-- An attempt that is not refused is a registration. -/
theorem attempt_of_register (h : t.register d = .ok t') : t.attempt d = t' := by
  rw [attempt, h]

/-- **Only a definition is refused**, and only beside one that it does not repeat. -/
theorem register_eq_error_iff {e : Failure} :
    t.register d = .error e ↔
      d.isStub = false ∧ ∃ old, t.definition? d.usr = some old ∧ old.isRepeatedBy d = false ∧
        e = .duplicateDeclaration d.usr old.kindName d.kindName := by
  unfold register
  split
  · next hstub => simp [hstub]
  · next hfull =>
    have hfull : d.isStub = false := by simpa using hfull
    split
    · next hnew => simp [hnew]
    · next old hold =>
      split
      · next hrepeat => simp [hold, hrepeat]
      · next hother =>
        have hother : old.isRepeatedBy d = false := by simpa using hother
        simp [hold, hfull, hother, eq_comm (a := e)]

/-- What an attempt does: only a definition of a new USR and a stub are kept. -/
theorem attempt_cases (t : Table) (d : Decl) :
    (d.isStub = true ∧ t.attempt d = { t with stubs := t.stubs ++ [d] }) ∨
    (d.isStub = false ∧ t.definition? d.usr = none ∧
      t.attempt d = { t with definitions := t.definitions ++ [d] }) ∨
    (d.isStub = false ∧ (t.definition? d.usr).isSome ∧ t.attempt d = t) := by
  cases h : t.register d with
  | error e =>
      obtain ⟨hfull, old, hold, _⟩ := register_eq_error_iff.1 h
      exact .inr (.inr ⟨hfull, by rw [hold]; rfl, by rw [attempt, h]⟩)
  | ok t' =>
      rw [attempt_of_register h]
      rcases register_cases h with hstub | hnew | ⟨hfull, ht, old, hold, _⟩
      · exact .inl hstub
      · exact .inr (.inl hnew)
      · exact .inr (.inr ⟨hfull, by rw [hold]; rfl, ht⟩)

/-- A USR is among the definitions if it has one. -/
theorem any_definitions_eq {usr : Usr} :
    t.definitions.any (·.usr == usr) = (t.definition? usr).isSome := by
  rw [definition?, Bool.eq_iff_iff, List.any_eq_true, List.find?_isSome]

/-- A definition joins the others if its USR is new to them, as a protocol joins
the protocols of a container. -/
theorem definitions_attempt (t : Table) (d : Decl) :
    (t.attempt d).definitions = ([d].filter (!·.isStub)).foldl addProtocol t.definitions := by
  rcases attempt_cases t d with ⟨hstub, h⟩ | ⟨hfull, hnew, h⟩ | ⟨hfull, hknown, h⟩
  · simp [h, hstub]
  · have hany : ¬ t.definitions.any (·.usr == d.usr) = true := by simp [any_definitions_eq, hnew]
    simp [h, hfull, addProtocol_of_not_any hany]
  · have hany : t.definitions.any (·.usr == d.usr) = true := by rw [any_definitions_eq, hknown]
    simp [h, hfull, addProtocol_of_any hany]

/-- A stub joins the stubs. -/
theorem stubs_attempt (t : Table) (d : Decl) :
    (t.attempt d).stubs = t.stubs ++ [d].filter Decl.isStub := by
  rcases attempt_cases t d with ⟨hstub, h⟩ | ⟨hfull, _, h⟩ | ⟨hfull, _, h⟩
  · simp [h, hstub]
  · simp [h, hfull]
  · simp [h, hfull]

/-- An attempt defines a USR only if nothing did before. -/
theorem definition?_attempt (t : Table) (d : Decl) (usr : Usr) :
    (t.attempt d).definition? usr = (t.definition? usr).or ([d].find? (·.defines usr)) := by
  rcases attempt_cases t d with ⟨hstub, h⟩ | ⟨hfull, hnew, h⟩ | ⟨hfull, hknown, h⟩
  · simp [h, definition?, Decl.defines, hstub]
  · simp [h, definition?, Decl.defines, hfull, List.find?_append]
  · rw [h]
    by_cases husr : d.usr = usr
    · subst husr
      rw [Option.or_of_isSome hknown]
    · simp [Decl.defines, husr]

/-- **What one attempt does to look-up by a property**: a new definition hides
what was found before, and a stub is found only where nothing was. -/
theorem named?_attempt (t : Table) (d : Decl) (p : Decl → Bool) :
    (t.attempt d).named? p =
      if d.isStub then (t.named? p).or ([d].find? p)
      else if (t.definition? d.usr).isSome then t.named? p
      else ([d].find? p).or (t.named? p) := by
  rcases attempt_cases t d with ⟨hstub, h⟩ | ⟨hfull, hnew, h⟩ | ⟨hfull, hknown, h⟩
  · rw [h, if_pos hstub, named?, named?, List.find?_append, Option.or_assoc]
  · rw [h, if_neg (by simp [hfull]), if_neg (by simp [hnew]), named?, named?,
      List.reverse_append, List.reverse_singleton, List.find?_append, Option.or_assoc]
  · rw [h, if_neg (by simp [hfull]), if_pos hknown]

/-! ## §3. Runs. -/

/-- A run adds the first definition of each USR that is new. -/
theorem definitions_foldl_attempt (ds : List Decl) (t : Table) :
    (ds.foldl attempt t).definitions
      = (ds.filter (!·.isStub)).foldl addProtocol t.definitions := by
  induction ds generalizing t with
  | nil => rfl
  | cons d ds ih =>
      -- The head has its effect on the table that the tail starts with.
      rw [List.foldl_cons, ih, definitions_attempt, ← List.foldl_append, ← List.filter_append,
        List.singleton_append]

/-- A run adds all of its stubs. -/
theorem stubs_foldl_attempt (ds : List Decl) (t : Table) :
    (ds.foldl attempt t).stubs = t.stubs ++ ds.filter Decl.isStub := by
  induction ds generalizing t with
  | nil => simp
  | cons d ds ih =>
      rw [List.foldl_cons, ih, stubs_attempt, List.append_assoc, ← List.filter_append,
        List.singleton_append]

/-- A run defines what was not defined before it. -/
theorem definition?_foldl_attempt (usr : Usr) (ds : List Decl) (t : Table) :
    (ds.foldl attempt t).definition? usr
      = (t.definition? usr).or (ds.find? (·.defines usr)) := by
  induction ds generalizing t with
  | nil => simp
  | cons d ds ih =>
      -- What the head defines goes before what the tail defines.
      rw [List.foldl_cons, ih, definition?_attempt, Option.or_assoc, ← List.find?_append,
        List.singleton_append]

/-- **The definitions are the first ones of their USRs, in order.** -/
theorem definitions_afterAll (ds : List Decl) :
    (afterAll ds).definitions = firstOfUsr (ds.filter (!·.isStub)) := by
  rw [afterAll, definitions_foldl_attempt, foldl_addProtocol_nil]

/-- The stubs are those of the run, in order. -/
theorem stubs_afterAll (ds : List Decl) : (afterAll ds).stubs = ds.filter Decl.isStub := by
  rw [afterAll, stubs_foldl_attempt, List.nil_append]

/-- The definition of a USR is the first of the run. -/
theorem definition?_afterAll (ds : List Decl) (usr : Usr) :
    (afterAll ds).definition? usr = ds.find? (·.defines usr) := by
  rw [afterAll, definition?_foldl_attempt]
  rfl

/-- A search through the stubs is one through the run. -/
theorem find?_stubs_afterAll (ds : List Decl) (p : Decl → Bool) :
    (afterAll ds).stubs.find? p = ds.find? fun d => d.isStub && p d := by
  rw [stubs_afterAll, List.find?_filter]
  simp

/-- A USR leads to its first definition, else to its first stub. -/
theorem find?_afterAll (ds : List Decl) (usr : Usr) :
    (afterAll ds).find? usr
      = (ds.find? (·.defines usr)).or (ds.find? (·.announces usr)) := by
  rw [find?, definition?_afterAll, find?_stubs_afterAll]
  rfl

/-- The USRs of the run are those of the table: what is refused has the USR of
an entry. -/
theorem mem_usrs_afterAll {ds : List Decl} {usr : Usr} :
    usr ∈ (afterAll ds).usrs ↔ usr ∈ ds.map Decl.usr := by
  have hdefinitions : usr ∈ (afterAll ds).definitions.map Decl.usr ↔
      ∃ d ∈ ds, d.defines usr = true := by
    rw [← not_iff_not, ← definition?_eq_none_iff, definition?_afterAll, List.find?_eq_none]
    simp
  rw [usrs, List.map_append, List.mem_append, hdefinitions, stubs_afterAll]
  simp only [List.mem_map, List.mem_filter, Decl.defines, Bool.and_eq_true, Bool.not_eq_true',
    beq_iff_eq]
  constructor
  · rintro (⟨d, hd, _, husr⟩ | ⟨d, ⟨hd, _⟩, husr⟩)
    · exact ⟨d, hd, husr⟩
    · exact ⟨d, hd, husr⟩
  · rintro ⟨d, hd, husr⟩
    -- A declaration that was refused still has the USR of some definition.
    cases hstub : d.isStub with
    | true => exact .inr ⟨d, ⟨hd, hstub⟩, husr⟩
    | false => exact .inl ⟨d, hd, hstub, husr⟩

/-- An attempt keeps a table well formed. -/
theorem wellFormed_attempt (h : t.WellFormed) (d : Decl) : (t.attempt d).WellFormed := by
  cases hr : t.register d with
  | error e => rwa [attempt, hr]
  | ok t' =>
      rw [attempt_of_register hr]
      exact h.register hr

/-- Every run leaves a table well formed. -/
theorem wellFormed_afterAll (ds : List Decl) : (afterAll ds).WellFormed := by
  suffices h : ∀ t : Table, t.WellFormed → (ds.foldl attempt t).WellFormed from
    h {} wellFormed_empty
  induction ds with
  | nil => exact fun _ ht => ht
  | cons d ds ih => exact fun t ht => ih _ (wellFormed_attempt ht d)

/-- A run in which nothing is refused. -/
theorem foldl_attempt_of_registerAll :
    ∀ {ds : List Decl} {t t' : Table}, t.registerAll ds = .ok t' → ds.foldl attempt t = t'
  | [], _, _, h => by
      injection h
  | d :: ds, t, t', h => by
      unfold registerAll at h
      split at h
      · cases h
      · next t₁ hd =>
        rw [List.foldl_cons, attempt_of_register hd]
        exact foldl_attempt_of_registerAll h

/-! ## §4. What a run leaves behind. -/

/-- The table `t` is what the registrations `ds` have to leave behind. -/
structure Holds (t : Table) (ds : List Decl) : Prop where
  /-- The first definition of each USR, in order of registration. -/
  definitions : t.definitions = firstOfUsr (ds.filter (!·.isStub))
  entries : ∀ d, d ∈ t.definitions ↔ IsFirst (·.defines d.usr) ds d
  /-- A USR leads to its first definition, and without one to its first stub. -/
  find : ∀ usr d, t.find usr = .ok d ↔
    IsFirst (·.defines usr) ds d ∨
      (∀ x ∈ ds, x.defines usr = false) ∧ IsFirst (·.announces usr) ds d
  /-- A USR without declarations is reported, with the closest USR of the run. -/
  missing : ∀ usr, (∀ x ∈ ds, x.usr ≠ usr) →
    t.find usr = .error (.declarationNotFound usr (Suggestion.best? usr (ds.map Decl.usr) 3))
  /-- The definition of a USR is the entry of the definitions. -/
  definition? : ∀ usr d, t.definition? usr = some d ↔ d ∈ t.definitions ∧ d.usr = usr
  isDefined : ∀ usr, t.isDefined usr = true ↔ ∃ d ∈ t.definitions, d.usr = usr
  /-- An interface of a name is its last definition, and without one its first stub. -/
  interfaceNamed? : ∀ name d, t.interfaceNamed? name = some d ↔
    IsLast (·.isInterfaceNamed name) t.definitions d ∨
      (∀ x ∈ t.definitions, x.isInterfaceNamed name = false) ∧
        IsFirst (fun x => x.isStub && x.isInterfaceNamed name) ds d
  /-- So is a protocol. -/
  protocolNamed? : ∀ name d, t.protocolNamed? name = some d ↔
    IsLast (·.isProtocolNamed name) t.definitions d ∨
      (∀ x ∈ t.definitions, x.isProtocolNamed name = false) ∧
        IsFirst (fun x => x.isStub && x.isProtocolNamed name) ds d
  /-- Only a definition is refused, and only beside an entry that it does not repeat. -/
  refuses : ∀ d e, t.register d = .error e ↔
    d.isStub = false ∧ ∃ old ∈ t.definitions, old.usr = d.usr ∧ old.isRepeatedBy d = false ∧
      e = .duplicateDeclaration d.usr old.kindName d.kindName

/-- One more declaration is one more attempt. -/
theorem afterAll_concat (ds : List Decl) (d : Decl) :
    afterAll (ds ++ [d]) = (afterAll ds).attempt d := by
  rw [afterAll, List.foldl_concat]
  rfl

/-- **Look-up by a property after a run**, said without a table: it finds the last
of the definitions that are first for their USRs, else the first stub. -/
theorem named?_afterAll (ds : List Decl) (p : Decl → Bool) :
    (afterAll ds).named? p = ((firstOfUsr (ds.filter (!·.isStub))).reverse.find? p).or
      (ds.find? fun d => d.isStub && p d) := by
  -- From the end of the run: the last attempt has its effect on what the others left.
  induction ds using List.reverseRecOn with
  | nil => rfl
  | append_singleton ds d ih =>
      have hdefinitions := definitions_attempt (afterAll ds) d
      rw [← afterAll_concat, definitions_afterAll, definitions_afterAll] at hdefinitions
      rw [hdefinitions, afterAll_concat, named?_attempt, ih, List.find?_append]
      cases hstub : d.isStub with
      | true => simp [hstub, Option.or_assoc]
      | false =>
          have hnone : [d].find? (fun x => x.isStub && p x) = none := by simp [hstub]
          have hany : (afterAll ds).definitions.any (·.usr == d.usr)
              = ((afterAll ds).definition? d.usr).isSome := any_definitions_eq
          rw [definitions_afterAll] at hany
          rw [hnone, Option.or_none, List.filter_cons_of_pos (by simp [hstub]),
            List.filter_nil, List.foldl_cons, List.foldl_nil, if_neg (by simp)]
          split
          · next hknown => rw [addProtocol_of_any (hany.trans hknown)]
          · next hnew =>
            have hnew : ¬ (firstOfUsr (ds.filter (!·.isStub))).any (·.usr == d.usr) = true := by
              rwa [hany]
            rw [addProtocol_of_not_any hnew, List.reverse_append, List.reverse_singleton,
              List.find?_append, Option.or_assoc]

/-- What look-up by a property finds after a run, by occurrence. -/
theorem named?_afterAll_eq_some_iff {ds : List Decl} {p : Decl → Bool} :
    (afterAll ds).named? p = some d ↔
      IsLast p (afterAll ds).definitions d ∨
        (∀ x ∈ (afterAll ds).definitions, p x = false) ∧
          IsFirst (fun x => x.isStub && p x) ds d := by
  rw [named?_afterAll, ← definitions_afterAll, Option.or_eq_some_iff,
    find?_reverse_eq_some_iff_isLast, find?_eq_some_iff_isFirst, List.find?_eq_none]
  simp only [List.mem_reverse, Bool.not_eq_true]

/-- **What every run of registrations leaves behind.** -/
theorem holds_afterAll (ds : List Decl) : (afterAll ds).Holds ds := by
  have hwf := wellFormed_afterAll ds
  constructor
  case definitions => exact definitions_afterAll ds
  case entries =>
    intro d
    rw [← find?_eq_some_iff_isFirst, ← definition?_afterAll, hwf.definition?_eq_some_iff]
    exact (and_iff_left rfl).symm
  case find =>
    intro usr d
    rw [find_eq_ok_iff, find?_afterAll, Option.or_eq_some_iff, find?_eq_some_iff_isFirst,
      List.find?_eq_none, find?_eq_some_iff_isFirst]
    simp only [Bool.not_eq_true]
  case missing =>
    -- The suggestion is made from the USRs only, in whatever order they stand.
    intro usr hnone
    have hfind : (afterAll ds).find? usr = none := by
      cases hd : (afterAll ds).find? usr with
      | none => rfl
      | some d =>
          obtain ⟨x, hx, husr⟩ := List.mem_map.1 (mem_usrs_afterAll.1 (mem_usrs_of_find? hd))
          exact absurd husr (hnone x hx)
    rw [Table.find, hfind, Suggestion.best?_congr usr fun _ => mem_usrs_afterAll]
  case definition? => exact fun usr d => hwf.definition?_eq_some_iff
  case isDefined =>
    intro usr
    rw [Table.isDefined, Option.isSome_iff_exists]
    exact exists_congr fun d => hwf.definition?_eq_some_iff
  case interfaceNamed? => exact fun name d => named?_afterAll_eq_some_iff
  case protocolNamed? => exact fun name d => named?_afterAll_eq_some_iff
  case refuses =>
    intro d e
    simp only [register_eq_error_iff, hwf.definition?_eq_some_iff, and_assoc]

end Table

end ObjcBindings
