/-
  ObjcBindings.Proofs.DeclarationOrder
  ────────────────────────────────
  **THE ORDER OF DECLARATIONS DOES NOT MATTER TO LOOK-UP.**

  Only the first definition of a USR is kept, and the later ones are compared
  with it alone.  That no other comparison could have come out differently
  rests on the comparison being an equivalence: two declarations repeat each
  other if and only if their essences are equal.

      Consistent   — definitions of one USR repeat each other
      Alike        — two tables that look-up by USR tells apart only by which
                     one of several repetitions it finds

  Main results:
    • `isRepeatedBy_iff` — repetition is equality of essences,
    • `ofUnit_outcome` — a unit has a table if and only if it is consistent,
      and is refused for two definitions otherwise,
    • `ofUnit_perm` — units with the same declarations have tables that are
      alike, or are both refused.
-/
import ObjcBindings.Proofs.ListSelections
import ObjcBindings.Proofs.Registrations

namespace ObjcBindings

/-! ## §1. Repetition is an equivalence. -/

/-- What the repetitions of a declaration agree in. -/
inductive Essence where
  | function
  | var
  | typedef (type : TypeExpr)
  | other (name : String) (kind : DeclKind)

namespace Decl

variable {x y z : Decl}

def essence (d : Decl) : Essence :=
  match d.kind with
  | .function _ _ _ _ => .function
  | .var _ => .var
  | .typedef type => .typedef type
  | kind => .other d.name kind

/-- **Repetition is equality of essences.** -/
theorem isRepeatedBy_iff : x.isRepeatedBy y = true ↔ x.essence = y.essence := by
  -- All pairs of kinds: the comparison treats three of them apart.
  cases hx : x.kind <;> cases hy : y.kind <;> simp [isRepeatedBy, essence, hx, hy]

/-- A definition repeats itself. -/
theorem isRepeatedBy_of_eq (h : x = y) : x.isRepeatedBy y = true :=
  isRepeatedBy_iff.2 (congrArg essence h)

/-- Repetition goes both ways. -/
theorem isRepeatedBy_symm (h : x.isRepeatedBy y = true) : y.isRepeatedBy x = true :=
  isRepeatedBy_iff.2 (isRepeatedBy_iff.1 h).symm

/-- What repeats a repetition repeats the first. -/
theorem isRepeatedBy_trans (h : x.isRepeatedBy y = true) (h' : y.isRepeatedBy z = true) :
    x.isRepeatedBy z = true :=
  isRepeatedBy_iff.2 ((isRepeatedBy_iff.1 h).trans (isRepeatedBy_iff.1 h'))

end Decl

namespace Table

/-! ## §2. When a unit has a table. -/

variable {t t' : Table} {xs ys : List Decl}

/-- Definitions of one USR repeat each other. -/
def Consistent (xs : List Decl) : Prop :=
  ∀ x ∈ xs, ∀ y ∈ xs, x.isStub = false → y.isStub = false → x.usr = y.usr →
    x.isRepeatedBy y = true

/-- A run that fails is refused at one declaration, after a run that succeeds. -/
theorem registerAll_eq_error {e : Failure} :
    ∀ {xs : List Decl} {t : Table}, t.registerAll xs = .error e →
      ∃ before d after t', xs = before ++ d :: after ∧ t.registerAll before = .ok t' ∧
        t'.register d = .error e
  | [], _, h => by cases h
  | x :: xs, t, h => by
      unfold registerAll at h
      split at h
      · next e' hx =>
        cases h
        exact ⟨[], x, xs, t, rfl, rfl, hx⟩
      · next t₁ hx =>
        obtain ⟨before, d, after, t', rfl, hbefore, hd⟩ := registerAll_eq_error h
        refine ⟨x :: before, d, after, t', rfl, ?_, hd⟩
        rw [registerAll, hx]
        exact hbefore

/-- A unit that has a table is consistent. -/
theorem consistent_of_ofUnit (h : ofUnit ⟨xs⟩ = .ok t) : Consistent xs := by
  have hwf := wellFormed_of_ofUnit h
  intro x hx y hy hxfull hyfull husr
  -- Both repeat the one definition of their USR.
  obtain ⟨a, ha, hax, hxrepeats⟩ := exists_definition_of_registerAll h hx hxfull
  obtain ⟨b, hb, hby, hyrepeats⟩ := exists_definition_of_registerAll h hy hyfull
  obtain rfl := hwf.eq_of_usr_eq ha hb (hax.trans (husr.trans hby.symm))
  have hx' : a.isRepeatedBy x = true := hxrepeats.elim Decl.isRepeatedBy_of_eq id
  have hy' : a.isRepeatedBy y = true := hyrepeats.elim Decl.isRepeatedBy_of_eq id
  exact Decl.isRepeatedBy_trans (Decl.isRepeatedBy_symm hx') hy'

/-- What a unit is refused for: a definition that contradicts an earlier one. -/
theorem not_consistent_of_ofUnit {e : Failure} (h : ofUnit ⟨xs⟩ = .error e) :
    ¬ Consistent xs ∧ ∃ usr first second, e = .duplicateDeclaration usr first second := by
  obtain ⟨before, d, after, t, rfl, hbefore, hd⟩ := registerAll_eq_error h
  obtain ⟨hfull, old, hold, hother, he⟩ := register_eq_error_iff.1 hd
  refine ⟨fun hconsistent => ?_, _, _, _, he⟩
  -- The entry that is contradicted was registered before, so it is of the unit.
  have hwf : t.WellFormed := wellFormed_empty.registerAll hbefore
  have hmem : old ∈ before := by
    rcases mem_registerAll hbefore old (List.mem_append_left _ (mem_of_definition? hold)) with h | h
    · exact h
    · simp at h
  have hrepeat : old.isRepeatedBy d = true :=
    hconsistent old (List.mem_append_left _ hmem) d (List.mem_append_right _ List.mem_cons_self)
      (hwf.full old (mem_of_definition? hold)) hfull (usr_of_definition? hold)
  rw [hother] at hrepeat
  cases hrepeat

/-- **A unit has a table if and only if it is consistent.** -/
theorem ofUnit_outcome (xs : List Decl) :
    (Consistent xs ∧ ofUnit ⟨xs⟩ = .ok (afterAll xs)) ∨
    (¬ Consistent xs ∧ ∃ usr first second,
      ofUnit ⟨xs⟩ = .error (.duplicateDeclaration usr first second)) := by
  cases h : ofUnit ⟨xs⟩ with
  | ok t =>
      refine .inl ⟨consistent_of_ofUnit h, ?_⟩
      rw [afterAll, foldl_attempt_of_registerAll h]
  | error e =>
      obtain ⟨hinconsistent, usr, first, second, rfl⟩ := not_consistent_of_ofUnit h
      exact .inr ⟨hinconsistent, usr, first, second, rfl⟩

/-! ## §3. Tables that are alike. -/

/-- Two results of looking up a USR. -/
inductive FoundAlike (usr : Usr) : Except Failure Decl → Except Failure Decl → Prop
  /-- Two stubs. -/
  | announced {x y : Decl} (hx : x.announces usr = true) (hy : y.announces usr = true) :
      FoundAlike usr (.ok x) (.ok y)
  /-- A definition and its repetition. -/
  | defined {x y : Decl} (hx : x.defines usr = true) (hy : y.defines usr = true)
      (repeats : x.isRepeatedBy y = true) : FoundAlike usr (.ok x) (.ok y)
  /-- Twice the same failure, with the same suggestion. -/
  | missing (suggestion : Option String) :
      FoundAlike usr (.error (.declarationNotFound usr suggestion))
        (.error (.declarationNotFound usr suggestion))

/-- Look-up by USR tells the tables apart by what repeats each other only. -/
structure Alike (t t' : Table) : Prop where
  isDefined : ∀ usr, t.isDefined usr = t'.isDefined usr
  stubCount : t.stubCount = t'.stubCount
  find : ∀ usr, FoundAlike usr (t.find usr) (t'.find usr)

/-- Two outcomes of making a table. -/
inductive BuiltAlike : Except Failure Table → Except Failure Table → Prop
  | tables {t t' : Table} (h : t.Alike t') : BuiltAlike (.ok t) (.ok t')
  /-- The definitions that contradict each other need not be the same two. -/
  | refused (usr first second usr' first' second' : String) :
      BuiltAlike (.error (.duplicateDeclaration usr first second))
        (.error (.duplicateDeclaration usr' first' second'))

variable (h : xs.Perm ys)
include h

/-- Definitions stay consistent in another order. -/
theorem Consistent.perm (hxs : Consistent xs) : Consistent ys :=
  fun x hx y hy => hxs x (h.mem_iff.2 hx) y (h.mem_iff.2 hy)

/-- A search succeeds in both lists or in neither. -/
theorem find?_perm (p : Decl → Bool) :
    (∃ x ∈ xs, ∃ y ∈ xs, xs.find? p = some x ∧ ys.find? p = some y ∧ p x = true ∧ p y = true) ∨
    (xs.find? p = none ∧ ys.find? p = none) := by
  cases hx : xs.find? p with
  | some x =>
      have hmem : x ∈ ys := h.mem_iff.1 (List.mem_of_find?_eq_some hx)
      obtain ⟨y, hy⟩ : ∃ y, ys.find? p = some y := by
        rw [← Option.isSome_iff_exists, List.find?_isSome]
        exact ⟨x, hmem, List.find?_some hx⟩
      exact .inl ⟨x, List.mem_of_find?_eq_some hx, y, h.mem_iff.2 (List.mem_of_find?_eq_some hy),
        rfl, hy, List.find?_some hx, List.find?_some hy⟩
  | none =>
      refine .inr ⟨rfl, ?_⟩
      rw [List.find?_eq_none] at hx ⊢
      exact fun y hy => hx y (h.mem_iff.2 hy)

/-- Another order counts the same stubs. -/
theorem stubCount_perm : (afterAll xs).stubCount = (afterAll ys).stubCount := by
  unfold stubCount
  rw [stubs_afterAll, stubs_afterAll]
  have hstubs : ((xs.filter Decl.isStub).map Decl.usr).Perm
      ((ys.filter Decl.isStub).map Decl.usr) := (h.filter _).map _
  refine List.Perm.length_eq ?_
  rw [List.perm_ext_iff_of_nodup (nodup_eraseDups _) (nodup_eraseDups _)]
  intro usr
  rw [List.mem_eraseDups, List.mem_eraseDups, hstubs.mem_iff]

/-- Another order finds a declaration where one was found. -/
theorem find_perm (hxs : Consistent xs) (usr : Usr) :
    FoundAlike usr ((afterAll xs).find usr) ((afterAll ys).find usr) := by
  have hbest : Suggestion.best? usr (afterAll xs).usrs 3
      = Suggestion.best? usr (afterAll ys).usrs 3 := by
    refine Suggestion.best?_congr usr (fun u => ?_) 3
    rw [mem_usrs_afterAll, mem_usrs_afterAll, (h.map _).mem_iff]
  rw [find, find, find?_afterAll, find?_afterAll, hbest]
  rcases find?_perm h (·.defines usr) with ⟨x, hx, y, hy, hfx, hfy, hxd, hyd⟩ | ⟨hfx, hfy⟩
  · rw [hfx, hfy]
    refine .defined hxd hyd ?_
    simp only [Decl.defines, Bool.and_eq_true, Bool.not_eq_true', beq_iff_eq] at hxd hyd
    exact hxs x hx y hy hxd.1 hyd.1 (hxd.2.trans hyd.2.symm)
  · -- Without a definition, the stubs count.
    rw [hfx, hfy, Option.none_or, Option.none_or]
    rcases find?_perm h (·.announces usr) with ⟨x, _, y, _, hfx, hfy, hxa, hya⟩ | ⟨hfx, hfy⟩
    · rw [hfx, hfy]
      exact .announced hxa hya
    · rw [hfx, hfy]
      exact .missing _

/-- **Permuted consistent declarations have tables that are alike.** -/
theorem alike_perm (hxs : Consistent xs) : (afterAll xs).Alike (afterAll ys) := by
  constructor
  case isDefined =>
    intro usr
    rw [isDefined, isDefined, definition?_afterAll, definition?_afterAll]
    rcases find?_perm h (·.defines usr) with ⟨x, _, y, _, hfx, hfy, _⟩ | ⟨hfx, hfy⟩
    · rw [hfx, hfy, Option.isSome_some, Option.isSome_some]
    · rw [hfx, hfy]
  case stubCount => exact stubCount_perm h
  case find => exact find_perm h hxs

omit h

/-- **Units with the same declarations have tables that are alike, or are both
refused.** -/
theorem ofUnit_perm {unit unit' : TranslationUnit} (h : unit.children.Perm unit'.children) :
    BuiltAlike (ofUnit unit) (ofUnit unit') := by
  rcases ofUnit_outcome unit.children with ⟨hxs, hok⟩ | ⟨hxs, usr, first, second, herror⟩
  · rcases ofUnit_outcome unit'.children with ⟨_, hok'⟩ | ⟨hys, _⟩
    · rw [hok, hok']
      exact .tables (alike_perm h hxs)
    · exact absurd (hxs.perm h) hys
  · rcases ofUnit_outcome unit'.children with ⟨hys, _⟩ | ⟨_, usr', first', second', herror'⟩
    · exact absurd (hys.perm h.symm) hxs
    · rw [herror, herror']
      exact .refused usr first second usr' first' second'

/-- A unit that also announces a class and repeats a typedef. -/
def repeatingUnit : TranslationUnit := ⟨canvasForward :: canvasUnit.children ++ [wordAgain]⟩

/-- It has a table, read forward or backward, and the repeated typedef is
found in another header then. -/
theorem repeatingUnit_reversed :
    repeatingUnit.children.Perm repeatingUnit.children.reverse ∧
      BuiltAlike (ofUnit repeatingUnit) (ofUnit ⟨repeatingUnit.children.reverse⟩) ∧
      ((ofUnit repeatingUnit).toOption.bind (·.definition? "t:Word")).map Decl.location
        = some none ∧
      ((ofUnit ⟨repeatingUnit.children.reverse⟩).toOption.bind (·.definition? "t:Word")).map
        Decl.location = some (some ⟨"again.h", none⟩) := by
  have hperm : repeatingUnit.children.Perm repeatingUnit.children.reverse :=
    (List.reverse_perm _).symm
  exact ⟨hperm, ofUnit_perm hperm, by cbv, by cbv⟩

end Table

end ObjcBindings
