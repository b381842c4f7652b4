/-
  ObjcBindings.Proofs.WrappedClasses
  ────────────────────────────────
  **WHICH WRAPPERS CHANGE THE SAFE LAYER.**

  The safe layer looks through wrappers like the raw one, with one exception:
  at an object type without a defined interface it compares the base with the
  builtin of `Class` as it stands, where the shape of `Class` is recognised
  below wrappers.  So a base in parentheses turns a class into any object.

      objectBase?, objectInterface? — the parts of the object type pointed to
      HidesClass                    — a wrapper stands between it and its base

  Main results:
    • `safe_eraseWrappers_iff` — the safe spelling is that of the type without
      wrappers exactly if no class is hidden; a class that is not hidden is
      spelled as a class, and a hidden one as any object,
    • `class_in_parentheses` — a class that is hidden.
-/
import ObjcBindings.Proofs.TransparentWrappers

namespace ObjcBindings

open Text

/-! ## §1. Pointers to object types. -/

namespace TypeExpr

/-- What an object pointer points to. -/
def objectPointee? (t : TypeExpr) : Option TypeExpr :=
  match t.stripWrappers with
  | .objectPointer pointee => some pointee
  | _ => none

/-- The base of an object type. -/
def base? (t : TypeExpr) : Option TypeExpr :=
  match t.stripWrappers with
  | .object base _ _ _ => base
  | _ => none

/-- The interface of an object type. -/
def interface? (t : TypeExpr) : Option Usr :=
  match t.stripWrappers with
  | .object _ interface _ _ => interface
  | _ => none

/-- The base of the object type that the type points to. -/
def objectBase? (t : TypeExpr) : Option TypeExpr := t.objectPointee?.bind base?

/-- The interface of the object type that the type points to. -/
def objectInterface? (t : TypeExpr) : Option Usr := t.objectPointee?.bind interface?

/-- Erasing wrappers erases what an object pointer leads to. -/
theorem objectPointee?_eraseWrappers (t : TypeExpr) :
    t.eraseWrappers.objectPointee? = t.objectPointee?.map eraseWrappers := by
  induction t using wrapper_induction with
  | wrapped _ t ih => exact ih
  | plain t plain => cases t <;> first | rfl | simp_all

theorem base?_eraseWrappers (t : TypeExpr) :
    t.eraseWrappers.base? = t.base?.map eraseWrappers := by
  induction t using wrapper_induction with
  | wrapped _ t ih => exact ih
  | plain t plain =>
      cases t with
      | wrapped w t => exact (plain w t rfl).elim
      | object base => exact eraseBase_eq_map base
      | _ => rfl

theorem interface?_eraseWrappers (t : TypeExpr) : t.eraseWrappers.interface? = t.interface? := by
  refine apply_eraseWrappers (f := interface?) (fun _ _ => rfl) (fun t plain => ?_) t
  cases t <;> first | rfl | simp_all

theorem objectBase?_eraseWrappers (t : TypeExpr) :
    t.eraseWrappers.objectBase? = t.objectBase?.map eraseWrappers := by
  rw [objectBase?, objectBase?, objectPointee?_eraseWrappers]
  cases t.objectPointee? with
  | none => rfl
  | some pointee => exact pointee.base?_eraseWrappers

theorem objectInterface?_eraseWrappers (t : TypeExpr) :
    t.eraseWrappers.objectInterface? = t.objectInterface? := by
  rw [objectInterface?, objectInterface?, objectPointee?_eraseWrappers]
  cases t.objectPointee? with
  | none => rfl
  | some pointee => exact pointee.interface?_eraseWrappers

/-- A type is erased to a builtin if it is the builtin below wrappers. -/
theorem eraseWrappers_eq_builtin_iff {name : String} {t : TypeExpr} :
    t.eraseWrappers = .builtin name ↔ t.isBuiltin name = true := by
  induction t using wrapper_induction with
  | wrapped _ t ih => exact ih
  | plain t plain => cases t <;> simp_all [eraseWrappers, isBuiltin, stripWrappers]

/-- The shape of `Class`, in terms of the base. -/
theorem isClassShape_iff {t : TypeExpr} :
    t.isClassShape = true ↔ t.eraseWrappers.objectBase? = some (.builtin "ObjCClass") := by
  rw [objectBase?_eraseWrappers, Option.map_eq_some_iff]
  simp only [eraseWrappers_eq_builtin_iff]
  unfold isClassShape isObjectPointerOf isObjectOf objectBase? objectPointee? base?
  grind

end TypeExpr

namespace Scope

variable {s : Scope} {path : List Usr} {current : String} {t : TypeExpr}

/-! ## §2. Safe spellings of object pointers. -/

/-- The interface that the type points to, if it is defined. -/
def classOf? (s : Scope) (t : TypeExpr) : Option Decl :=
  t.objectInterface?.bind s.definedInterface?

/-- The type points to the object type of a class, which no defined interface
names, and a wrapper stands around its base. -/
structure HidesClass (s : Scope) (t : TypeExpr) : Prop where
  shape : t.isClassShape = true
  unnamed : s.classOf? t = none
  hidden : t.objectBase? ≠ some (.builtin "ObjCClass")

/-- An object of a class that nothing names: it is a class itself, or any
object. -/
def unnamedObject (base : Option TypeExpr) : String :=
  if base = some (.builtin "ObjCClass") then classPointer else objectPointer

/-- **The safe spelling of an object pointer** depends on the interface and the
base of what it points to. -/
theorem safeForm_of_objectPointer (h : t.objectPointee?.isSome = true) :
    s.safeForm path t = .ok ⟨match s.classOf? t with
      | some d => .ofDecl d
      | none => .fixed (unnamedObject t.objectBase?), .object⟩ := by
  rw [safeForm_stripWrappers]
  unfold classOf? TypeExpr.objectInterface? TypeExpr.objectBase?
  unfold TypeExpr.objectPointee? at h ⊢
  split at h
  · next pointee hpointee =>
    rw [hpointee, safeForm]
    unfold objectPointerType TypeExpr.base? TypeExpr.interface? unnamedObject
    grind
  · cases h

theorem classOf?_eraseWrappers : s.classOf? t.eraseWrappers = s.classOf? t := by
  rw [classOf?, classOf?, TypeExpr.objectInterface?_eraseWrappers]

/-- All types but object pointers have the same safe spelling with and without wrappers. -/
theorem safeForm_eraseWrappers_of_none (h : t.objectPointee? = none) :
    s.safeForm path t.eraseWrappers = s.safeForm path t := by
  induction t using TypeExpr.wrapper_induction with
  | wrapped w t ih =>
      rw [safeForm]
      exact ih h
  | plain t plain =>
      have hraw := s.rawType_eraseWrappers path t
      cases t with
      | wrapped w t => exact (plain w t rfl).elim
      | objectPointer pointee => cases h
      | pointer | decayed | constantArray =>
          simp only [TypeExpr.eraseWrappers] at hraw ⊢
          rw [safeForm, safeForm, hraw]
      | builtin | typedef | record | enum | typeParam | unknown => rfl
      | _ =>
          have hfails := TypeExpr.unsupported_eraseWrappers plain
          simp only [TypeExpr.eraseWrappers] at hfails ⊢
          simp [safeForm, hfails]

/-! ## §3. Hidden classes. -/

/-- A type with a class below wrappers is an object pointer. -/
theorem isSome_of_isClassShape (h : t.isClassShape = true) : t.objectPointee?.isSome = true := by
  have hbase := TypeExpr.isClassShape_iff.1 h
  rw [TypeExpr.objectBase?_eraseWrappers, TypeExpr.objectBase?] at hbase
  cases hpointee : t.objectPointee? with
  | none => simp [hpointee] at hbase
  | some pointee => rfl

/-- The spelling of a class that no defined interface names. -/
theorem safe_of_isClassShape (h : t.isClassShape = true) (hnone : s.classOf? t = none) :
    s.safe current t = .ok ⟨unnamedObject t.objectBase?, .object⟩ := by
  rw [safe, safeForm_of_objectPointer (isSome_of_isClassShape h), hnone]
  rfl

/-- Without wrappers a class is spelled as a class. -/
theorem safe_eraseWrappers_of_isClassShape (h : t.isClassShape = true)
    (hnone : s.classOf? t = none) :
    s.safe current t.eraseWrappers = .ok ⟨classPointer, .object⟩ := by
  rw [safe_of_isClassShape (t.isClassShape_eraseWrappers.trans h)
    (classOf?_eraseWrappers.trans hnone), TypeExpr.isClassShape_iff.1 h, unnamedObject, if_pos rfl]

/-- A class hidden by wrappers is written as an object. -/
theorem HidesClass.safe_eq (h : s.HidesClass t) :
    s.safe current t = .ok ⟨objectPointer, .object⟩ := by
  rw [safe_of_isClassShape h.shape h.unnamed, unnamedObject, if_neg h.hidden]

/-- Where no class is hidden, a base and its erased form say the same. -/
theorem unnamedObject_eraseWrappers (hnone : s.classOf? t = none) (h : ¬ s.HidesClass t) :
    unnamedObject t.eraseWrappers.objectBase? = unnamedObject t.objectBase? := by
  by_cases hshape : t.isClassShape = true
  · have hbase : t.objectBase? = some (.builtin "ObjCClass") :=
      not_not.1 fun hhidden => h ⟨hshape, hnone, hhidden⟩
    rw [TypeExpr.isClassShape_iff.1 hshape, hbase]
  · have herased : t.eraseWrappers.objectBase? ≠ some (.builtin "ObjCClass") :=
      fun hbase => hshape (TypeExpr.isClassShape_iff.2 hbase)
    have hbase : t.objectBase? ≠ some (.builtin "ObjCClass") := by
      intro hbase
      rw [TypeExpr.objectBase?_eraseWrappers, hbase] at herased
      exact herased rfl
    rw [unnamedObject, unnamedObject, if_neg herased, if_neg hbase]

/-- **Only types that hide a class are written otherwise.** -/
theorem safeForm_eraseWrappers (h : ¬ s.HidesClass t) :
    s.safeForm path t.eraseWrappers = s.safeForm path t := by
  cases hpointee : t.objectPointee? with
  | none => exact safeForm_eraseWrappers_of_none hpointee
  | some pointee =>
      have herased : t.eraseWrappers.objectPointee?.isSome = true := by
        rw [TypeExpr.objectPointee?_eraseWrappers, hpointee]
        rfl
      rw [safeForm_of_objectPointer herased, safeForm_of_objectPointer (by rw [hpointee]; rfl),
        classOf?_eraseWrappers]
      cases hclass : s.classOf? t with
      | some d => rfl
      | none => simp only [unnamedObject_eraseWrappers hclass h]

/-- **The safe spelling of a type is that of the type without wrappers exactly
if no class is hidden.**  A class that no defined interface names is spelled as
a class unless it is hidden, and then as any object. -/
theorem safe_eraseWrappers_iff (s : Scope) (current : String) (t : TypeExpr) :
    (s.safe current t.eraseWrappers = s.safe current t ↔ ¬ s.HidesClass t) ∧
    (t.isClassShape = true → s.classOf? t = none → ¬ s.HidesClass t →
      s.safe current t = .ok ⟨classPointer, .object⟩) ∧
    (s.HidesClass t →
      s.safe current t.eraseWrappers = .ok ⟨classPointer, .object⟩ ∧
      s.safe current t = .ok ⟨objectPointer, .object⟩) := by
  have hsame : ¬ s.HidesClass t → s.safe current t.eraseWrappers = s.safe current t := by
    intro h
    rw [safe, safe, safeForm_eraseWrappers h]
  have hother : s.HidesClass t →
      s.safe current t.eraseWrappers = .ok ⟨classPointer, .object⟩ ∧
        s.safe current t = .ok ⟨objectPointer, .object⟩ :=
    fun h => ⟨safe_eraseWrappers_of_isClassShape h.shape h.unnamed, h.safe_eq⟩
  refine ⟨⟨fun heq h => ?_, hsame⟩, fun hshape hnone h => ?_, hother⟩
  · obtain ⟨hclass, hobject⟩ := hother h
    rw [hclass, hobject] at heq
    simp [classPointer, objectPointer] at heq
  · rw [← hsame h]
    exact safe_eraseWrappers_of_isClassShape hshape hnone

end Scope

/-! ## §4. A class in parentheses. -/

/-- Nothing is declared. -/
def blankScope : Scope := ⟨{}, {}, [], []⟩

/-- A pointer that must not be null to the type of classes, the base in
parentheses. -/
def parenthesizedClass : TypeExpr :=
  .wrapped (.attributed (some .nonnull) false)
    (.objectPointer (.object (some (.wrapped .paren (.builtin "ObjCClass"))) none [] []))

/-- The same with the parentheses around the object type. -/
def parenthesizedObject : TypeExpr :=
  .wrapped (.attributed (some .nonnull) false)
    (.objectPointer (.wrapped .paren (.object (some (.builtin "ObjCClass")) none [] [])))

/-- Parentheses around the object type hide nothing, those around its base do. -/
theorem parenthesized_safe_eraseWrappers :
    (¬ blankScope.HidesClass parenthesizedObject ∧
      blankScope.safe "core" parenthesizedObject = .ok ⟨"ObjCClassPointer", .object⟩) ∧
    (blankScope.HidesClass parenthesizedClass ∧
      blankScope.safe "core" parenthesizedClass = .ok ⟨"ObjCObjectPointer", .object⟩) := by
  obtain ⟨_, hclass, _⟩ := Scope.safe_eraseWrappers_iff blankScope "core" parenthesizedObject
  obtain ⟨_, _, hhidden⟩ := Scope.safe_eraseWrappers_iff blankScope "core" parenthesizedClass
  have hplain : ¬ blankScope.HidesClass parenthesizedObject := fun h => h.hidden rfl
  have hhides : blankScope.HidesClass parenthesizedClass := ⟨by decide, rfl, nofun⟩
  exact ⟨⟨hplain, hclass (by decide) rfl hplain⟩, hhides, (hhidden hhides).2⟩

/-- **A class in parentheses is spelled as any object**, though it has the shape
of `Class`, no interface names it, and nothing is circular; without the
parentheses it is spelled as a class. -/
theorem class_in_parentheses :
    blankScope.table.Acyclic ∧ parenthesizedClass.isClassShape = true ∧
    blankScope.classOf? parenthesizedClass = none ∧
    blankScope.safe "core" parenthesizedClass = .ok ⟨"ObjCObjectPointer", .object⟩ ∧
    blankScope.safe "core" parenthesizedClass.eraseWrappers =
      .ok ⟨"ObjCClassPointer", .object⟩ := by
  have hfalls : blankScope.table.Falls fun _ => 0 := fun _ hd => absurd hd List.not_mem_nil
  exact ⟨Table.acyclic_of_rank hfalls, by decide, rfl, by cbv, by cbv⟩

end ObjcBindings
