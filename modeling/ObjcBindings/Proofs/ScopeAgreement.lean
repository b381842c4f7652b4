/-
  ObjcBindings.Proofs.ScopeAgreement
  ────────────────────────────────
  **TWO SCOPES THAT SPELL AND JUDGE ALIKE.**

  Two scopes agree if their tables do and everything else is the same.  Types
  are followed through typedefs and enums; what a type of the region leads to
  is in the region, so questions about it go alike in both scopes:

      type_induction   — induction along typedefs, enums and parts of types
      rawType, safeForm, isObjectLike — spellings
      fits             — verdicts, with the same memory afterwards

  The scopes may have room for different numbers of records to be examined
  inside each other.  It never runs out: a record that is examined is one of
  the table that the memory did not hold yet.
-/
import ObjcBindings.Bindings.Plan
import ObjcBindings.Interop.Spelling
import ObjcBindings.Proofs.RememberedAnswers
import ObjcBindings.Proofs.TableAgreement
import Mathlib

namespace ObjcBindings

open Text (NameSet)

/-! ## §1. Scopes. -/

namespace Scope

/-- The tables agree on what is known, all that is in use is known, and the
rest is the same. -/
structure Agrees (strict : Prop) (known : Usr → Bool) (s s' : Scope) : Prop where
  table : s.table.Agrees strict known s'.table
  used : s'.used = s.used
  rules : s'.rules = s.rules
  tagNames : s'.tagNames = s.tagNames
  inUse : ∀ usr, usr ∈ s.used.typedefs ∨ usr ∈ s.used.structs ∨ usr ∈ s.used.enums →
    known usr = true

variable {strict : Prop} {known : Usr → Bool} {s s' : Scope} {usr : Usr} {t : TypeExpr}

/-- Both scopes put a declaration into the same module. -/
theorem Agrees.moduleOf (h : s.Agrees strict known s') (d : Decl) :
    s'.moduleOf d = s.moduleOf d := by
  rw [Scope.moduleOf, Scope.moduleOf, h.rules]

/-- Both write the name of a declaration in the same way. -/
theorem Agrees.qualify (h : s.Agrees strict known s') (name : String) (d : Decl)
    (current : String) : s'.qualify name d current = s.qualify name d current := by
  rw [Scope.qualify, Scope.qualify, h.moduleOf]

/-- Both know a record or enum under the same name. -/
theorem Agrees.canonicalName? (h : s.Agrees strict known s') (usr : Usr) :
    s'.canonicalName? usr = s.canonicalName? usr := by
  rw [Scope.canonicalName?, Scope.canonicalName?, h.tagNames]

/-- Both scopes write a record or enum under the same name. -/
theorem Agrees.tagName (h : s.Agrees strict known s') (d : Decl) : s'.tagName d = s.tagName d := by
  rw [Scope.tagName, Scope.tagName, h.canonicalName?]

/-- Both merge the same typedefs. -/
theorem Agrees.isMerged (h : s.Agrees strict known s') (usr : Usr) :
    s'.isMerged usr = s.isMerged usr := by
  simp only [Scope.isMerged, h.tagNames, h.canonicalName?]

/-- Both have the same interfaces of the region. -/
theorem Agrees.definedInterface? (h : s.Agrees strict known s') (husr : known usr = true) :
    s'.definedInterface? usr = s.definedInterface? usr := by
  rw [Scope.definedInterface?, Scope.definedInterface?, h.table.definition? usr husr]

/-- A typedef of the region is found in both or in neither. -/
theorem Agrees.typedef (h : s.Agrees strict known s') (husr : known usr = true) :
    Alike strict (s.typedef usr) (s'.typedef usr) := by
  unfold Scope.typedef
  rcases (h.table.find usr husr).elim with ⟨d, hx, hy⟩ | ⟨e, e', hx, hy, same⟩
  · rw [hx, hy]
    exact .refl _
  · rw [hx, hy]
    exact .error same

theorem Agrees.record (h : s.Agrees strict known s') (husr : known usr = true) :
    Alike strict (s.record usr) (s'.record usr) := by
  unfold Scope.record
  rcases (h.table.find usr husr).elim with ⟨d, hx, hy⟩ | ⟨e, e', hx, hy, same⟩
  · rw [hx, hy]
    exact .refl _
  · rw [hx, hy]
    exact .error same

theorem Agrees.enum (h : s.Agrees strict known s') (husr : known usr = true) :
    Alike strict (s.enum usr) (s'.enum usr) := by
  unfold Scope.enum
  rcases (h.table.find usr husr).elim with ⟨d, hx, hy⟩ | ⟨e, e', hx, hy, same⟩
  · rw [hx, hy]
    exact .refl _
  · rw [hx, hy]
    exact .error same

theorem Agrees.superclassOf (h : s.Agrees strict known s') {superclass : Option Usr}
    (hsuper : ∀ usr ∈ superclass, known usr = true) :
    Alike strict (s.superclassOf superclass) (s'.superclassOf superclass) := by
  cases superclass with
  | none => exact .ok none
  | some usr =>
      have husr := hsuper usr rfl
      unfold Scope.superclassOf Scope.superclass
      rcases (h.table.find usr husr).elim with ⟨d, hx, hy⟩ | ⟨e, e', hx, hy, same⟩
      · simp only [hx, hy, h.definedInterface? husr]
        exact .refl _
      · simp only [hx, hy]
        exact .error same

/-! ## §2. Along typedefs and enums. -/

/-- What a known USR leads to refers to what is known. -/
theorem Agrees.within_of_enters (h : s.Agrees strict known s') (henters : s.Enters usr t) :
    t.Within known := by
  cases henters with
  | typedef found =>
      obtain ⟨hfind, hk⟩ := typedef_eq_ok_iff.1 found
      exact (h.table.within _ (Table.mem_of_find (Table.find_eq_ok_iff.2 hfind))).typedef hk
  | enum found =>
      obtain ⟨hfind, _, hk⟩ := enum_eq_ok_iff.1 found
      exact (h.table.within _ (Table.mem_of_find (Table.find_eq_ok_iff.2 hfind))).integer hk

/-- What is entered is in the table. -/
theorem mem_usrs_of_enters (henters : s.Enters usr t) : usr ∈ s.table.usrs := by
  cases henters with
  | typedef found => exact mem_usrs_of_typedef found
  | enum found => exact mem_usrs_of_enum found

end Scope

/-- The types inside a type are smaller. -/
theorem TypeExpr.sizeOf_inner_lt {t t' : TypeExpr} (h : t' ∈ t.inner) : sizeOf t' < sizeOf t := by
  cases t with
  | object base interface protocols args =>
      rcases List.mem_append.1 h with h | h
      · rw [Option.mem_toList.1 h]
        simp only [TypeExpr.object.sizeOf_spec, Option.some.sizeOf_spec]
        omega
      · have hlt := List.sizeOf_lt_of_mem h
        simp only [TypeExpr.object.sizeOf_spec]
        omega
  | function params result isVariadic =>
      rcases List.mem_cons.1 h with rfl | h
      · simp only [TypeExpr.function.sizeOf_spec]
        omega
      · obtain ⟨⟨type, isConsumed⟩, hp, rfl⟩ := List.mem_map.1 h
        have hlt := List.sizeOf_lt_of_mem hp
        simp only [TypeExpr.function.sizeOf_spec, Slot.mk.sizeOf_spec] at hlt ⊢
        omega
  | constantArray _ _ | vector _ _ | extVector _ _ =>
      obtain rfl := List.mem_singleton.1 h
      simp
      omega
  | _ => simp_all [TypeExpr.inner]

namespace Scope

variable {strict : Prop} {known : Usr → Bool} {s s' : Scope} {usr : Usr} {t : TypeExpr}
  {path : List Usr}

/-- **Induction along types**: through their parts, and through typedefs and
enums that are not on the path yet. -/
theorem type_induction (s : Scope) {motive : List Usr → TypeExpr → Prop}
    (step : ∀ path t, (∀ t' ∈ t.inner, motive path t') →
      (∀ usr type, s.Enters usr type → usr ∉ path → motive (usr :: path) type) →
      motive path t) (path : List Usr) (t : TypeExpr) : motive path t :=
  step path t (fun t' _inside => type_induction s step path t')
    (fun usr type _enters _new => type_induction s step (usr :: path) type)
termination_by (NameSet.missing s.table.usrs path, sizeOf t)
decreasing_by
  · exact Prod.Lex.right _ (TypeExpr.sizeOf_inner_lt _inside)
  · exact Prod.Lex.left _ _ (NameSet.missing_cons_lt (mem_usrs_of_enters _enters) _new)

/-! ## §3. Spellings. -/

/-- One typedef further, in the question whether the type is an object. -/
theorem isObjectLike_typedef (s : Scope) (path : List Usr) (name : String) (usr : Usr) :
    s.isObjectLike path (.typedef name usr) = s.typedef usr >>= fun (d, type) =>
      match Idiom.detect? d.name type with
      | some idiom => .ok idiom.isObject
      | none =>
          if usr ∈ path then .error (.circular usr) else s.isObjectLike (usr :: path) type := by
  rw [isObjectLike]
  cases hd : s.typedef usr with
  | error e => rfl
  | ok r => rfl

/-- One typedef further, on the way to a raw type. -/
theorem rawType_typedef (s : Scope) (path : List Usr) (name : String) (usr : Usr) :
    s.rawType path (.typedef name usr) = s.typedef usr >>= fun (d, type) =>
      match Idiom.detect? d.name type with
      | some idiom => .ok (.fixed idiom.raw)
      | none =>
          if usr ∈ path then .error (.circular usr)
          else if s.isMerged usr then s.rawType (usr :: path) type
          else (s.isObjectLike (usr :: path) type).map fun isObject =>
            if isObject then .fixed objectPointer else .ofDecl d := by
  rw [rawType]
  cases hd : s.typedef usr with
  | error e => rfl
  | ok r =>
      obtain ⟨d, type⟩ := r
      simp only [bind, Except.bind]
      rcases s.isObjectLike (usr :: path) type with e | (_ | _) <;> rfl

/-- One typedef further, on the way to a safe form. -/
theorem safeForm_typedef (s : Scope) (path : List Usr) (name : String) (usr : Usr) :
    s.safeForm path (.typedef name usr) = s.typedef usr >>= fun (d, type) =>
      match Idiom.detect? d.name type with
      | some idiom => .ok idiom.safe
      | none =>
          if usr ∈ path then .error (.circular usr)
          else if s.isMerged usr then s.safeForm (usr :: path) type
          else (s.isObjectLike (usr :: path) type).map fun isObject =>
            ⟨.ofDecl d, if isObject then .object else .identity⟩ := by
  rw [safeForm]
  cases hd : s.typedef usr with
  | error e => rfl
  | ok r =>
      obtain ⟨d, type⟩ := r
      simp only [bind, Except.bind]
      rcases s.isObjectLike (usr :: path) type with e | isObject <;> rfl

/-- **Both scopes agree on which types of the region are objects.** -/
theorem Agrees.isObjectLike (h : s.Agrees strict known s') (path : List Usr) (t : TypeExpr)
    (hw : t.Within known) : Alike strict (s.isObjectLike path t) (s'.isObjectLike path t) := by
  refine type_induction s (motive := fun path t => t.Within known →
    Alike strict (s.isObjectLike path t) (s'.isObjectLike path t)) ?_ path t hw
  intro path t inside enters hw
  cases t with
  | wrapped w inner =>
      rw [Scope.isObjectLike, Scope.isObjectLike]
      exact inside inner List.mem_cons_self (hw.inner List.mem_cons_self)
  | typedef name usr =>
      have husr : known usr = true := hw usr (by simp [TypeExpr.mentioned])
      rw [isObjectLike_typedef, isObjectLike_typedef]
      refine (h.typedef husr).bind ?_
      rintro ⟨d, type⟩ found
      dsimp only
      -- Both follow the typedef, unless its name or the path stops them.
      split
      · exact .refl _
      · split
        · exact .refl _
        · next hnew =>
          exact enters usr type (.typedef found) hnew (h.within_of_enters (.typedef found))
  | objectPointer pointee =>
      rw [Scope.isObjectLike, Scope.isObjectLike]
      exact .refl _
  | typeParam name protocols =>
      rw [Scope.isObjectLike, Scope.isObjectLike]
      exact .refl _
  | _ =>
      simp only [Scope.isObjectLike]
      exact .refl _

/-- Both write a record of the region in the same way. -/
theorem Agrees.recordType (h : s.Agrees strict known s') (husr : known usr = true) :
    Alike strict (s.recordType usr) (s'.recordType usr) := by
  unfold Scope.recordType
  simp only [h.tagName]
  exact (h.record husr).map _

/-- Both write an enum of the region in the same way. -/
theorem Agrees.enumType (h : s.Agrees strict known s') (husr : known usr = true) :
    Alike strict (s.enumType usr) (s'.enumType usr) := by
  unfold Scope.enumType
  simp only [h.tagName]
  exact (h.enum husr).map _

/-- **Both scopes give a type of the region the same raw type.** -/
theorem Agrees.rawType (h : s.Agrees strict known s') (path : List Usr) (t : TypeExpr)
    (hw : t.Within known) : Alike strict (s.rawType path t) (s'.rawType path t) := by
  refine type_induction s (motive := fun path t => t.Within known →
    Alike strict (s.rawType path t) (s'.rawType path t)) ?_ path t hw
  intro path t inside enters hw
  cases t with
  | wrapped w inner =>
      rw [Scope.rawType, Scope.rawType]
      exact inside inner List.mem_cons_self (hw.inner List.mem_cons_self)
  | typedef name usr =>
      have husr : known usr = true := hw usr (by simp [TypeExpr.mentioned])
      rw [rawType_typedef, rawType_typedef, h.isMerged]
      refine (h.typedef husr).bind ?_
      rintro ⟨d, type⟩ found
      have htype : type.Within known := h.within_of_enters (.typedef found)
      dsimp only
      split
      · exact .refl _
      · split
        · exact .refl _
        · next hnew =>
          split
          · exact enters usr type (.typedef found) hnew htype
          · exact (h.isObjectLike _ type htype).map _
  | pointer pointee =>
      -- The form of the pointee alone decides whether the pointer is opened.
      rw [Scope.rawType, Scope.rawType]
      split
      · exact .refl _
      · split
        · exact .refl _
        · exact (inside pointee List.mem_cons_self (hw.inner List.mem_cons_self)).map _
  | decayed pointee =>
      rw [Scope.rawType, Scope.rawType]
      split
      · exact .refl _
      · exact (inside pointee List.mem_cons_self (hw.inner List.mem_cons_self)).map _
  | constantArray element size =>
      rw [Scope.rawType, Scope.rawType]
      exact (inside element List.mem_cons_self (hw.inner List.mem_cons_self)).map _
  | record usr =>
      rw [Scope.rawType, Scope.rawType]
      exact h.recordType (hw usr (by simp [TypeExpr.mentioned]))
  | enum usr =>
      rw [Scope.rawType, Scope.rawType]
      exact h.enumType (hw usr (by simp [TypeExpr.mentioned]))
  | _ =>
      simp only [Scope.rawType]
      exact .refl _

/-- A pointer to an object leads to the same interface. -/
theorem Agrees.objectPointerType (h : s.Agrees strict known s') (hw : t.Within known) :
    s'.objectPointerType t = s.objectPointerType t := by
  have hstrip := hw.stripWrappers
  unfold Scope.objectPointerType
  split
  · next base interface protocols args hobject =>
    have hinterface : interface.bind s'.definedInterface? = interface.bind s.definedInterface? := by
      cases interface with
      | none => rfl
      | some usr =>
          refine h.definedInterface? (hstrip usr ?_)
          rw [hobject, TypeExpr.mentioned]
          simp
    rw [hinterface]
  · rfl

/-- **Both scopes give a type of the region the same safe form.** -/
theorem Agrees.safeForm (h : s.Agrees strict known s') (path : List Usr) (t : TypeExpr)
    (hw : t.Within known) : Alike strict (s.safeForm path t) (s'.safeForm path t) := by
  refine type_induction s (motive := fun path t => t.Within known →
    Alike strict (s.safeForm path t) (s'.safeForm path t)) ?_ path t hw
  intro path t inside enters hw
  cases t with
  | wrapped w inner =>
      rw [Scope.safeForm, Scope.safeForm]
      exact inside inner List.mem_cons_self (hw.inner List.mem_cons_self)
  | typedef name usr =>
      have husr : known usr = true := hw usr (by simp [TypeExpr.mentioned])
      rw [safeForm_typedef, safeForm_typedef, h.isMerged]
      refine (h.typedef husr).bind ?_
      rintro ⟨d, type⟩ found
      have htype : type.Within known := h.within_of_enters (.typedef found)
      dsimp only
      split
      · exact .refl _
      · split
        · exact .refl _
        · next hnew =>
          split
          · exact enters usr type (.typedef found) hnew htype
          · exact (h.isObjectLike _ type htype).map _
  | pointer _ | decayed _ | constantArray _ _ =>
      -- These are passed raw, in both scopes by the lemma above.
      rw [Scope.safeForm, Scope.safeForm]
      exact (h.rawType path _ hw).map _
  | objectPointer pointee =>
      rw [Scope.safeForm, Scope.safeForm, h.objectPointerType (hw.inner List.mem_cons_self)]
      exact .refl _
  | record usr =>
      rw [Scope.safeForm, Scope.safeForm]
      exact (h.recordType (hw usr (by simp [TypeExpr.mentioned]))).map _
  | enum usr =>
      rw [Scope.safeForm, Scope.safeForm]
      exact (h.enumType (hw usr (by simp [TypeExpr.mentioned]))).map _
  | _ =>
      simp only [Scope.safeForm]
      exact .refl _

/-- What was spelled is written alike. -/
theorem Agrees.write (h : s.Agrees strict known s') (current : String) (r : RustType) :
    s'.write current r = s.write current r := by
  induction r with
  | fixed text => rfl
  | named ident d => exact h.qualify ident d current
  | pointer target ih => rw [Scope.write, Scope.write, ih]
  | array element size ih => rw [Scope.write, Scope.write, ih]

/-- **Types of the region have the same raw spelling.** -/
theorem Agrees.raw (h : s.Agrees strict known s') (current : String) (hw : t.Within known) :
    Alike strict (s.raw current t) (s'.raw current t) := by
  refine (h.rawType [] t hw).bind fun r _ => ?_
  exact .of_eq (h.write current r).symm

/-- **Types of the region have the same safe spelling.** -/
theorem Agrees.safe (h : s.Agrees strict known s') (current : String) (hw : t.Within known) :
    Alike strict (s.safe current t) (s'.safe current t) := by
  refine (h.safeForm [] t hw).bind fun form _ => ?_
  refine .of_eq ?_
  rw [writeSafe, writeSafe, h.write]

end Scope

/-! ## §4. Room to examine records. -/

/-- The records about which something is remembered. -/
def Memory.keys (m : Memory) : List Usr := m.map Prod.fst

/-- Nothing is remembered of what is no key. -/
theorem Memory.lookup_eq_none_iff {m : Memory} {usr : Usr} :
    m.lookup usr = none ↔ usr ∉ m.keys := by
  rw [List.lookup_eq_none_iff, Memory.keys, List.mem_map]
  grind

namespace Scope

variable {strict : Prop} {known : Usr → Bool} {s s' : Scope} {usr : Usr} {t : TypeExpr}
  {path : List Usr} {room room' : Nat} {m m' : Memory}

/-- Fewer records of the table are new to the memory than can be examined
inside each other. -/
def HasRoom (s : Scope) (room : Nat) (m : Memory) : Prop :=
  NameSet.missing s.table.usrs m.keys < room

/-- At the start there is room, whatever is remembered. -/
theorem hasRoom_room (s : Scope) (m : Memory) : s.HasRoom s.room m :=
  Nat.lt_succ_of_le (NameSet.missing_le_length _ _)

/-- What is remembered besides takes no room. -/
theorem HasRoom.mono (h : s.HasRoom room m) (hle : m.keys ⊆ m'.keys) : s.HasRoom room m' :=
  Nat.lt_of_le_of_lt (NameSet.missing_anti _ fun _ hmem => hle hmem) h

/-- A new record takes its place, and leaves room for the rest. -/
theorem HasRoom.push (h : s.HasRoom (room + 1) m) (hmem : usr ∈ s.table.usrs)
    (hnew : usr ∉ m.keys) (b : Bool) : s.HasRoom room ((usr, b) :: m) := by
  have hlt : NameSet.missing s.table.usrs (usr :: m.keys) < NameSet.missing s.table.usrs m.keys :=
    NameSet.missing_cons_lt hmem hnew
  have hroom : NameSet.missing s.table.usrs m.keys < room + 1 := h
  show NameSet.missing s.table.usrs (usr :: m.keys) < room
  omega

end Scope

/-! ## §5. Verdicts. -/

/-- Two verdicts are alike and leave the same memory, which holds all that `m`
did. -/
structure Verdict.Alike (strict : Prop) (m : Memory) (v v' : Verdict) : Prop where
  answer : ObjcBindings.Alike strict v.1 v'.1
  memory : v'.2 = v.2
  grows : m.keys ⊆ v.2.keys

namespace Verdict.Alike

variable {strict : Prop} {m m₁ : Memory} {v v' : Verdict}

/-- Two verdicts from one answer. -/
theorem of_answer {x y : Except Failure Bool} (h : ObjcBindings.Alike strict x y) :
    Verdict.Alike strict m (x, m) (y, m) :=
  ⟨h, rfl, fun _ hmem => hmem⟩

/-- A verdict is like itself. -/
theorem refl (x : Except Failure Bool) : Verdict.Alike strict m (x, m) (x, m) :=
  of_answer (.refl x)

/-- Verdicts that are alike for more are alike for less. -/
theorem mono (h : Verdict.Alike strict m₁ v v') (hle : m.keys ⊆ m₁.keys) :
    Verdict.Alike strict m v v' :=
  ⟨h.answer, h.memory, fun _ hmem => h.grows (hle hmem)⟩

/-- Alike verdicts, case by case. -/
theorem elim (h : Verdict.Alike strict m v v') :
    ∃ m₁, m.keys ⊆ m₁.keys ∧
      ((∃ b, v = (.ok b, m₁) ∧ v' = (.ok b, m₁)) ∨
        ∃ e e', v = (.error e, m₁) ∧ v' = (.error e', m₁) ∧ (strict → e = e')) := by
  obtain ⟨x, m₁⟩ := v
  obtain ⟨y, m₂⟩ := v'
  obtain ⟨answer, memory, grows⟩ := h
  simp only at answer memory grows
  subst memory
  refine ⟨m₂, grows, ?_⟩
  rcases answer.elim with ⟨b, rfl, rfl⟩ | ⟨e, e', rfl, rfl, same⟩
  · exact .inl ⟨b, rfl, rfl⟩
  · exact .inr ⟨e, e', rfl, rfl, same⟩

end Verdict.Alike

namespace Scope

variable {strict : Prop} {known : Usr → Bool} {s s' : Scope} {usr : Usr} {t : TypeExpr}
  {path : List Usr} {room room' : Nat} {m : Memory}

/-- One typedef further, in an examination. -/
theorem fits_typedef (s : Scope) (room : Nat) (path : List Usr) (use : Use) (name : String)
    (usr : Usr) (m : Memory) :
    s.fits room path use (.typedef name usr) m =
      match s.typedef usr with
      | .error e => (.error e, m)
      | .ok (d, type) =>
          if (Idiom.detect? d.name type).isSome then (.ok true, m)
          else if usr ∈ path then (.error (.circular usr), m)
          else s.fits room (usr :: path) use type m := by
  rw [fits]
  cases hd : s.typedef usr with
  | error e => rfl
  | ok r => rfl

/-- One enum further, in an examination. -/
theorem fits_enum (s : Scope) (room : Nat) (path : List Usr) (use : Use) (usr : Usr)
    (m : Memory) :
    s.fits room path use (.enum usr) m =
      match s.enum usr with
      | .error e => (.error e, m)
      | .ok (_, some integerType, _ :: _) =>
          if usr ∈ path then (.error (.circular usr), m)
          else s.fits room (usr :: path) .value integerType m
      | .ok _ => (.ok false, m) := by
  rw [fits]
  rcases hd : s.enum usr with e | ⟨d, (_ | integerType), (_ | ⟨x, xs⟩)⟩ <;> rfl

/-- One record further, in an examination. -/
theorem fits_record (s : Scope) (room : Nat) (path : List Usr) (use : Use) (usr : Usr)
    (m : Memory) :
    s.fits room path use (.record usr) m =
      if use = .pointee then
        match s.record usr with
        | .error e => (.error e, m)
        | .ok (_, _, tag) => (.ok (tag ≠ .union), m)
      else match m.lookup usr with
        | some known => (.ok known, m)
        | none =>
            match room with
            | 0 => (.ok false, m)
            | room + 1 => s.examine room usr m := by
  refine (fits.eq_def s room path use (.record usr) m).trans ?_
  cases room <;> rfl

/-- With this much room, the verdicts on types of the region are alike, however
much room there is in the other scope. -/
def FitsAlike (strict : Prop) (known : Usr → Bool) (s s' : Scope) (room : Nat) : Prop :=
  ∀ room' path use t m, t.Within known → s.HasRoom room m → s'.HasRoom room' m →
    Verdict.Alike strict m (s.fits room path use t m) (s'.fits room' path use t m)

/-- Fields are examined alike if their types are. -/
theorem FitsAlike.fields (h : FitsAlike strict known s s' room) :
    ∀ {fields : List Decl} {m : Memory}, (∀ t ∈ fieldTypes fields, t.Within known) →
      s.HasRoom room m → s'.HasRoom room' m →
      Verdict.Alike strict m (s.fieldsFit room fields m) (s'.fieldsFit room' fields m)
  | [], m, _, _, _ => by
      rw [fieldsFit, fieldsFit]
      exact .refl _
  | f :: fs, m, hw, hroom, hroom' => by
      rw [fieldsFit, fieldsFit]
      split
      · next type hk =>
        rw [fieldTypes_cons hk, List.forall_mem_cons] at hw
        obtain ⟨m₁, hle, ⟨b, hx, hy⟩ | ⟨e, e', hx, hy, same⟩⟩ :=
          (h room' [] .value type m hw.1 hroom hroom').elim
        · rw [hx, hy]
          cases b with
          | true => exact (h.fields hw.2 (hroom.mono hle) (hroom'.mono hle)).mono hle
          | false => exact (Verdict.Alike.refl _).mono hle
        · rw [hx, hy]
          exact (Verdict.Alike.of_answer (.error same)).mono hle
      · exact .refl _

/-- A new record is examined alike. -/
theorem FitsAlike.examine (h : FitsAlike strict known s s' room) (hs : s.Agrees strict known s')
    (husr : known usr = true) (hnew : usr ∉ m.keys) (hroom : s.HasRoom (room + 1) m)
    (hroom' : s'.HasRoom (room' + 1) m) :
    Verdict.Alike strict m (s.examine room usr m) (s'.examine room' usr m) := by
  -- The provisional answer is remembered first, so the record is no longer new below.
  have hpush : m.keys ⊆ Memory.keys ((usr, false) :: m) := fun _ hmem => List.mem_cons_of_mem _ hmem
  rw [Scope.examine, Scope.examine]
  rcases (hs.record husr).elim with ⟨⟨d, fields, tag⟩, hx, hy⟩ | ⟨e, e', hx, hy, same⟩
  · rw [hx, hy]
    dsimp only
    split
    · exact (Verdict.Alike.refl _).mono fun _ hmem => List.mem_cons_of_mem _ (hpush hmem)
    · obtain ⟨hfind, hk⟩ := record_eq_ok_iff.1 hx
      have hd := hs.table.within d (Table.mem_of_find (Table.find_eq_ok_iff.2 hfind))
      obtain ⟨m₁, hle, ⟨b, hv, hv'⟩ | ⟨e, e', hv, hv', same⟩⟩ :=
        (h.fields (fun t ht => hd.field hk ht)
          (hroom.push (mem_usrs_of_record hx) hnew false)
          (hroom'.push (mem_usrs_of_record hy) hnew false)).elim
      · rw [hv, hv']
        exact (Verdict.Alike.refl _).mono fun _ hmem => List.mem_cons_of_mem _ (hle (hpush hmem))
      · rw [hv, hv']
        exact (Verdict.Alike.of_answer (.error same)).mono fun _ hmem => hle (hpush hmem)
  · rw [hx, hy]
    exact (Verdict.Alike.of_answer (.error same)).mono hpush

/-- **Verdicts on types of the region are alike**, and leave the same memory.
By induction on the room, and along types in between. -/
theorem Agrees.fits (h : s.Agrees strict known s') :
    ∀ room, FitsAlike strict known s s' room
  | 0 => fun _ _ _ _ _ _ hroom _ => absurd hroom (Nat.not_lt_zero _)
  | room + 1 => by
      intro room' path use t m hw hroom hroom'
      -- Only records change the memory, so it stays fixed along types.
      refine type_induction s (motive := fun path t => ∀ use, t.Within known →
        Verdict.Alike strict m (s.fits (room + 1) path use t m) (s'.fits room' path use t m))
        ?_ path t use hw
      intro path t inside enters use hw
      cases t with
      | wrapped w inner =>
          rw [Scope.fits, Scope.fits]
          exact inside inner List.mem_cons_self use (hw.inner List.mem_cons_self)
      | builtin name =>
          rw [Scope.fits, Scope.fits]
          split
          · exact .refl _
          · exact .refl _
      | typedef name usr =>
          have husr : known usr = true := hw usr (by simp [TypeExpr.mentioned])
          rw [fits_typedef, fits_typedef]
          rcases (h.typedef husr).elim with ⟨⟨d, type⟩, hx, hy⟩ | ⟨e, e', hx, hy, same⟩
          · rw [hx, hy]
            dsimp only
            split
            · exact .refl _
            · split
              · exact .refl _
              · next hnew =>
                exact enters usr type (.typedef hx) hnew use (h.within_of_enters (.typedef hx))
          · rw [hx, hy]
            exact .of_answer (.error same)
      | pointer pointee =>
          rw [Scope.fits, Scope.fits]
          split
          · exact .refl _
          · exact inside pointee List.mem_cons_self .pointee (hw.inner List.mem_cons_self)
      | decayed pointee =>
          rw [Scope.fits, Scope.fits]
          exact inside pointee List.mem_cons_self .pointee (hw.inner List.mem_cons_self)
      | objectPointer pointee =>
          rw [Scope.fits, Scope.fits]
          exact .refl _
      | record usr =>
          have husr : known usr = true := hw usr (by simp [TypeExpr.mentioned])
          rw [fits_record, fits_record]
          split
          · rcases (h.record husr).elim with ⟨⟨d, fields, tag⟩, hx, hy⟩ | ⟨e, e', hx, hy, same⟩
            · rw [hx, hy]
              exact .refl _
            · rw [hx, hy]
              exact .of_answer (.error same)
          · split
            · exact .refl _
            · next hunknown =>
              have hnew := Memory.lookup_eq_none_iff.1 hunknown
              -- There is room in the other scope, too.
              cases room' with
              | zero => exact absurd hroom' (Nat.not_lt_zero _)
              | succ room' => exact (h.fits room).examine h husr hnew hroom hroom'
      | enum usr =>
          have husr : known usr = true := hw usr (by simp [TypeExpr.mentioned])
          rw [fits_enum, fits_enum]
          rcases (h.enum husr).elim with ⟨⟨d, integerType, es⟩, hx, hy⟩ | ⟨e, e', hx, hy, same⟩
          · rw [hx, hy]
            rcases integerType with _ | integerType
            · exact .refl _
            · rcases es with _ | ⟨x, xs⟩
              · exact .refl _
              · dsimp only
                split
                · exact .refl _
                · next hnew =>
                  exact enters usr integerType (.enum hx) hnew .value
                    (h.within_of_enters (.enum hx))
          · rw [hx, hy]
            exact .of_answer (.error same)
      | constantArray element size =>
          rw [Scope.fits, Scope.fits]
          exact inside element List.mem_cons_self .value (hw.inner List.mem_cons_self)
      | _ =>
          simp only [Scope.fits]
          exact .refl _

end Scope

end ObjcBindings
