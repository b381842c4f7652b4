/-
  ObjcBindings.Proofs.TransparentWrappers
  ────────────────────────────────
  **WRAPPERS CHANGE NOTHING IN THE RAW LAYER.**

  Attributes, keywords and parentheses may stand around every part of a type:
  what a pointer points to, the base of an object type, its arguments.

      TypeExpr.eraseWrappers   — the type without any of them

  Main results:
    • `ne_wrapped_of_occursIn` — no wrapper is left,
    • `apply_eraseWrappers` — what looks through the wrappers around a type does
      not see that those inside are gone, if the plain types do not,
    • `eraseWrappers_transparent` — the raw layer, the question what can cross a
      message send and the shapes of the language's own typedefs are the same
      with and without wrappers.
-/
import ObjcBindings.Interop.Fitness
import ObjcBindings.Proofs.CanonicalNames
import ObjcBindings.Proofs.AcyclicReferences

namespace ObjcBindings

open Text

/-! ## §1. Types without wrappers. -/

namespace TypeExpr

mutual

/-- The type without the wrappers in it, at any depth. -/
def eraseWrappers : TypeExpr → TypeExpr
  | .wrapped _ t => t.eraseWrappers
  | .pointer t => .pointer t.eraseWrappers
  | .blockPointer t => .blockPointer t.eraseWrappers
  | .decayed t => .decayed t.eraseWrappers
  | .objectPointer t => .objectPointer t.eraseWrappers
  | .object base interface protocols args =>
      .object (eraseBase base) interface protocols (eraseArgs args)
  | .function params result isVariadic =>
      .function (eraseSlots params) result.eraseWrappers isVariadic
  | .functionNoProto t => .functionNoProto t.eraseWrappers
  | .constantArray t size => .constantArray t.eraseWrappers size
  | .incompleteArray t => .incompleteArray t.eraseWrappers
  | .vector t lanes => .vector t.eraseWrappers lanes
  | .extVector t lanes => .extVector t.eraseWrappers lanes
  | .builtin name => .builtin name
  | .typedef name usr => .typedef name usr
  | .record usr => .record usr
  | .enum usr => .enum usr
  | .typeParam name protocols => .typeParam name protocols
  | .unknown => .unknown

/-- The base of an object type without wrappers. -/
def eraseBase : Option TypeExpr → Option TypeExpr
  | none => none
  | some t => some t.eraseWrappers

/-- The arguments of an object type without wrappers. -/
def eraseArgs : List TypeExpr → List TypeExpr
  | [] => []
  | t :: ts => t.eraseWrappers :: eraseArgs ts

/-- The parameters of a function type without wrappers. -/
def eraseSlots : List (Slot TypeExpr) → List (Slot TypeExpr)
  | [] => []
  | ⟨t, isConsumed⟩ :: slots => ⟨t.eraseWrappers, isConsumed⟩ :: eraseSlots slots

end

/-- Wrappers in the base of an object type are erased. -/
theorem eraseBase_eq_map (base : Option TypeExpr) : eraseBase base = base.map eraseWrappers := by
  cases base <;> rfl

theorem eraseArgs_eq_map (args : List TypeExpr) : eraseArgs args = args.map eraseWrappers := by
  induction args with
  | nil => rfl
  | cons t ts ih => rw [eraseArgs, ih, List.map_cons]

theorem map_type_eraseSlots (slots : List (Slot TypeExpr)) :
    (eraseSlots slots).map Slot.type = slots.map fun slot => slot.type.eraseWrappers := by
  induction slots with
  | nil => rfl
  | cons slot slots ih => rw [eraseSlots, List.map_cons, ih, List.map_cons]

/-- Inside the erased type stands what stands inside the type, erased. -/
theorem inner_eraseWrappers (t : TypeExpr) :
    t.eraseWrappers.inner = t.stripWrappers.inner.map eraseWrappers := by
  induction t using wrapper_induction with
  | wrapped _ t ih => exact ih
  | plain t plain =>
      rw [stripWrappers_of_plain plain]
      cases t with
      | wrapped w t => exact (plain w t rfl).elim
      | object base =>
          cases base <;> simp [eraseWrappers, inner, eraseBase, eraseArgs_eq_map]
      | function => simp [eraseWrappers, inner, map_type_eraseSlots]
      | _ => rfl

/-- The erased type is no wrapper. -/
theorem eraseWrappers_ne_wrapped (t : TypeExpr) (w : Wrapper) (u : TypeExpr) :
    t.eraseWrappers ≠ .wrapped w u := by
  induction t using wrapper_induction with
  | wrapped _ t ih => exact ih
  | plain t plain => cases t <;> simp_all [eraseWrappers]

/-- **No wrapper occurs in an erased type**, at any depth. -/
theorem ne_wrapped_of_occursIn {t t' : TypeExpr} (h : t'.OccursIn t.eraseWrappers) (w : Wrapper)
    (u : TypeExpr) : t' ≠ .wrapped w u := by
  suffices herased : ∃ v : TypeExpr, t' = v.eraseWrappers by
    obtain ⟨v, rfl⟩ := herased
    exact v.eraseWrappers_ne_wrapped w u
  induction h using Relation.ReflTransGen.head_induction_on with
  | refl => exact ⟨t, rfl⟩
  | head step _ ih =>
      obtain ⟨v, rfl⟩ := ih
      rw [inner_eraseWrappers] at step
      obtain ⟨v', _, rfl⟩ := List.mem_map.1 step
      exact ⟨v', rfl⟩

/-! ## §2. What is read off a type. -/

/-- **What looks through wrappers is the same for the erased type**, if that
holds of the types that are no wrappers. -/
theorem apply_eraseWrappers {α : Type} {f : TypeExpr → α} (through : ∀ w t, f (.wrapped w t) = f t)
    (plain : ∀ t, (∀ w u, t ≠ .wrapped w u) → f t.eraseWrappers = f t) (t : TypeExpr) :
    f t.eraseWrappers = f t := by
  induction t using wrapper_induction with
  | wrapped w t ih =>
      rw [through]
      exact ih
  | plain t hplain => exact plain t hplain

/-- Erasing wrappers keeps which types are `void`. -/
theorem isVoid_eraseWrappers (t : TypeExpr) :
    t.eraseWrappers.stripWrappers.isVoid = t.stripWrappers.isVoid := by
  refine apply_eraseWrappers (f := (·.stripWrappers.isVoid)) (fun _ _ => rfl) (fun t plain => ?_) t
  cases t <;> first | rfl | simp_all

theorem isObject_eraseWrappers (t : TypeExpr) :
    t.eraseWrappers.stripWrappers.isObject = t.stripWrappers.isObject := by
  refine apply_eraseWrappers (f := (·.stripWrappers.isObject)) (fun _ _ => rfl)
    (fun t plain => ?_) t
  cases t <;> first | rfl | simp_all

theorem isBuiltin_eraseWrappers (name : String) (t : TypeExpr) :
    t.eraseWrappers.isBuiltin name = t.isBuiltin name := by
  refine apply_eraseWrappers (f := isBuiltin name) (fun _ _ => rfl) (fun t plain => ?_) t
  cases t <;> first | rfl | simp_all

/-- It keeps which types are objects of a base. -/
theorem isObjectOf_eraseWrappers (name : String) (t : TypeExpr) :
    t.eraseWrappers.isObjectOf name = t.isObjectOf name := by
  refine apply_eraseWrappers (f := isObjectOf name) (fun _ _ => rfl) (fun t plain => ?_) t
  cases t with
  | wrapped w t => exact (plain w t rfl).elim
  | object base =>
      cases base with
      | none => rfl
      | some base => exact isBuiltin_eraseWrappers name base
  | _ => rfl

theorem isObjectPointerOf_eraseWrappers (name : String) (t : TypeExpr) :
    t.eraseWrappers.isObjectPointerOf name = t.isObjectPointerOf name := by
  refine apply_eraseWrappers (f := isObjectPointerOf name) (fun _ _ => rfl) (fun t plain => ?_) t
  cases t with
  | wrapped w t => exact (plain w t rfl).elim
  | objectPointer pointee => exact isObjectOf_eraseWrappers name pointee
  | _ => rfl

theorem isSelShape_eraseWrappers (t : TypeExpr) : t.eraseWrappers.isSelShape = t.isSelShape := by
  refine apply_eraseWrappers (f := isSelShape) (fun _ _ => rfl) (fun t plain => ?_) t
  cases t with
  | wrapped w t => exact (plain w t rfl).elim
  | pointer pointee => exact isBuiltin_eraseWrappers "ObjCSel" pointee
  | _ => rfl

theorem isIdShape_eraseWrappers (t : TypeExpr) : t.eraseWrappers.isIdShape = t.isIdShape :=
  isObjectPointerOf_eraseWrappers "ObjCId" t

theorem isClassShape_eraseWrappers (t : TypeExpr) :
    t.eraseWrappers.isClassShape = t.isClassShape :=
  isObjectPointerOf_eraseWrappers "ObjCClass" t

theorem isBoolShape_eraseWrappers (t : TypeExpr) :
    t.eraseWrappers.isBoolShape = t.isBoolShape := by
  rw [isBoolShape, isBuiltin_eraseWrappers, isBuiltin_eraseWrappers, isBoolShape]

/-- **So it keeps which typedefs are idioms.** -/
theorem detect?_eraseWrappers (name : String) (t : TypeExpr) :
    Idiom.detect? name t.eraseWrappers = Idiom.detect? name t := by
  simp only [Idiom.detect?, isBoolShape_eraseWrappers, isIdShape_eraseWrappers,
    isSelShape_eraseWrappers, isClassShape_eraseWrappers]

/-- The text of diagnostics names no wrapper. -/
theorem describe_eraseWrappers : ∀ t : TypeExpr, t.eraseWrappers.describe = t.describe
  | .wrapped _ t => describe_eraseWrappers t
  | .pointer t | .decayed t | .objectPointer t | .blockPointer t | .constantArray t _
  | .incompleteArray t => by
      simp only [eraseWrappers, describe, describe_eraseWrappers t]
  | .object (some base) _ _ _ => describe_eraseWrappers base
  | .object none (some _) _ _ | .object none none _ _ => rfl
  | .function _ _ _ | .functionNoProto _ | .vector _ _ | .extVector _ _ | .builtin _
  | .typedef _ _ | .record _ | .enum _ | .typeParam _ _ | .unknown => rfl

/-- A type that is no wrapper fails like its erased form. -/
theorem unsupported_eraseWrappers {t : TypeExpr} (plain : ∀ w u, t ≠ .wrapped w u) :
    t.eraseWrappers.unsupported = t.unsupported := by
  have hclass : t.eraseWrappers.className = t.className := by
    cases t with
    | wrapped w t => exact (plain w t rfl).elim
    | _ => rfl
  rw [unsupported, unsupported, hclass, describe_eraseWrappers]

end TypeExpr

namespace Scope

variable (s : Scope) (path : List Usr)

/-! ## §3. The raw layer. -/

/-- **It keeps which types are objects.** -/
theorem isObjectLike_eraseWrappers (t : TypeExpr) :
    s.isObjectLike path t.eraseWrappers = s.isObjectLike path t := by
  refine TypeExpr.apply_eraseWrappers (f := s.isObjectLike path) (fun _ _ => by rw [isObjectLike])
    (fun t plain => ?_) t
  cases t <;> simp_all [TypeExpr.eraseWrappers, isObjectLike]

/-- An unsupported type without wrappers outside stays so, with the same report. -/
theorem rawType_eraseWrappers_of_unsupported {t : TypeExpr} (plain : ∀ w u, t ≠ .wrapped w u)
    (ht : s.rawType path t = .error t.unsupported)
    (herased : s.rawType path t.eraseWrappers = .error t.eraseWrappers.unsupported) :
    s.rawType path t.eraseWrappers = s.rawType path t := by
  rw [ht, herased, TypeExpr.unsupported_eraseWrappers plain]

/-- **A type and its erased form are passed alike**, or fail alike. -/
theorem rawType_eraseWrappers (t : TypeExpr) :
    s.rawType path t.eraseWrappers = s.rawType path t := by
  match t with
  | .wrapped _ t =>
      rw [rawType]
      exact rawType_eraseWrappers t
  | .pointer pointee =>
      have hshape := TypeExpr.isSelShape_eraseWrappers (.pointer pointee)
      simp only [TypeExpr.eraseWrappers] at hshape ⊢
      rw [rawType, rawType, hshape, TypeExpr.isVoid_eraseWrappers, rawType_eraseWrappers pointee]
  | .decayed pointee =>
      simp only [TypeExpr.eraseWrappers]
      rw [rawType, rawType, TypeExpr.isVoid_eraseWrappers, rawType_eraseWrappers pointee]
  | .constantArray element size =>
      simp only [TypeExpr.eraseWrappers]
      rw [rawType, rawType, rawType_eraseWrappers element]
  | .objectPointer _ => simp only [TypeExpr.eraseWrappers, rawType]
  | .builtin _ | .typedef _ _ | .record _ | .enum _ | .typeParam _ _ | .unknown => rfl
  | .object _ _ _ _ | .blockPointer _ | .function _ _ _ | .functionNoProto _ | .vector _ _
  | .extVector _ _ | .incompleteArray _ =>
      exact rawType_eraseWrappers_of_unsupported s path (by simp) (by simp [rawType])
        (by simp [rawType, TypeExpr.eraseWrappers])

/-! ## §4. What can cross. -/

/-- **It keeps every examination**, with its memory. -/
theorem fits_eraseWrappers (room : Nat) (m : Memory) :
    ∀ (use : Use) (t : TypeExpr), s.fits room path use t.eraseWrappers m = s.fits room path use t m
  | use, .wrapped _ t => by
      rw [fits]
      exact fits_eraseWrappers room m use t
  | use, .pointer pointee => by
      have hshape := TypeExpr.isSelShape_eraseWrappers (.pointer pointee)
      simp only [TypeExpr.eraseWrappers] at hshape ⊢
      rw [fits, fits, hshape, fits_eraseWrappers room m .pointee pointee]
  | use, .decayed pointee => by
      simp only [TypeExpr.eraseWrappers]
      rw [fits, fits, fits_eraseWrappers room m .pointee pointee]
  | use, .constantArray element _ => by
      simp only [TypeExpr.eraseWrappers]
      rw [fits, fits, fits_eraseWrappers room m .value element]
  | use, .objectPointer pointee => by
      simp only [TypeExpr.eraseWrappers, fits, TypeExpr.isObject_eraseWrappers]
  | _, .builtin _ | _, .typedef _ _ | _, .record _ | _, .enum _ | _, .typeParam _ _
  | _, .unknown => rfl
  | _, .object _ _ _ _ | _, .blockPointer _ | _, .function _ _ _ | _, .functionNoProto _
  | _, .vector _ _ | _, .extVector _ _ | _, .incompleteArray _ => by
      simp [TypeExpr.eraseWrappers, fits]

/-! ## §5. The theorem. -/

/-- **Wrappers change nothing** in the raw layer, in the question whether a
type is one of objects, in what can cross a message send, and in the shapes
that the language's own typedefs are known by: results and failures are those
of the type without wrappers. -/
theorem eraseWrappers_transparent (s : Scope) (current : String) (t : TypeExpr) :
    s.raw current t.eraseWrappers = s.raw current t ∧
    s.isObjectLike [] t.eraseWrappers = s.isObjectLike [] t ∧
    (∀ m, s.typeFits t.eraseWrappers m = s.typeFits t m) ∧
    (∀ m, s.pointeeFits t.eraseWrappers m = s.pointeeFits t m) ∧
    t.eraseWrappers.isIdShape = t.isIdShape ∧
    t.eraseWrappers.isClassShape = t.isClassShape ∧
    t.eraseWrappers.isSelShape = t.isSelShape ∧
    t.eraseWrappers.isBoolShape = t.isBoolShape ∧
    ∀ name, Idiom.detect? name t.eraseWrappers = Idiom.detect? name t := by
  have hraw : s.raw current t.eraseWrappers = s.raw current t := by
    rw [raw, raw, rawType_eraseWrappers]
  exact ⟨hraw, s.isObjectLike_eraseWrappers [] t,
    fun m => s.fits_eraseWrappers [] s.room m .value t,
    fun m => s.fits_eraseWrappers [] s.room m .pointee t,
    t.isIdShape_eraseWrappers, t.isClassShape_eraseWrappers, t.isSelShape_eraseWrappers,
    t.isBoolShape_eraseWrappers, fun name => TypeExpr.detect?_eraseWrappers name t⟩

end Scope

end ObjcBindings
