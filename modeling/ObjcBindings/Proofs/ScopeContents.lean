/-
  ObjcBindings.Proofs.ScopeContents
  ────────────────────────────────
  **WHAT THE SCOPE OF A UNIT HOLDS.**

  The scope of a unit has a well-formed table, and the declarations in use are
  those that the table's containers use.  A stub is BARE if it only announces:
  it is no typedef, has no enumerators and no fields.  Where all forward
  declarations of a unit are bare, a typedef that is found is a definition,
  and so is an enum with enumerators.
-/
import ObjcBindings.Interop.Scope
import ObjcBindings.Proofs.ReferenceClosure
import ObjcBindings.Proofs.TableContents

namespace ObjcBindings

/-! ## §1. Bare declarations. -/

/-- The declaration is no typedef, has no enumerators and no fields. -/
def Decl.isBare (d : Decl) : Bool :=
  match d.kind with
  | .typedef _ => false
  | .enum _ _ enumerators => enumerators.isEmpty
  | .record fields _ => fields.isEmpty
  | _ => true

/-- No typedef, no enum with enumerators and no record with fields is marked as
a forward declaration. -/
def TranslationUnit.HasBareForwards (unit : TranslationUnit) : Prop :=
  ∀ d ∈ unit.children, d.isForward = true → d.isBare = true

/-! ## §2. Scopes of units. -/

namespace Scope

/-- The table is well formed, and `used` is what it uses. -/
structure WellFormed (s : Scope) : Prop where
  table : s.table.WellFormed
  used : s.table.used = .ok s.used
  tagNames : s.tagNames = s.table.tagNames

/-- All stubs of the table are bare. -/
def HasBareStubs (s : Scope) : Prop :=
  ∀ d ∈ s.table.stubs, d.isBare = true

/-- What the scope of a unit is made of. -/
theorem ofUnit_eq_ok {unit : TranslationUnit} {rules : List ModuleRule} {s : Scope}
    (h : ofUnit unit rules = .ok s) :
    Table.ofUnit unit = .ok s.table ∧ s.table.used = .ok s.used ∧ s.rules = rules
      ∧ s.tagNames = s.table.tagNames := by
  unfold ofUnit at h
  obtain ⟨table, ht, h⟩ := bind_eq_ok_iff.1 h
  obtain ⟨used, hu, h⟩ := bind_eq_ok_iff.1 h
  cases h
  exact ⟨ht, hu, rfl, rfl⟩

/-- **The scope of a unit is well formed.** -/
theorem wellFormed_of_ofUnit {unit : TranslationUnit} {rules : List ModuleRule} {s : Scope}
    (h : ofUnit unit rules = .ok s) : s.WellFormed := by
  obtain ⟨ht, hu, _, hn⟩ := ofUnit_eq_ok h
  exact ⟨Table.wellFormed_of_ofUnit ht, hu, hn⟩

/-- The stubs are declarations of the unit that only announce. -/
theorem isStub_of_ofUnit {unit : TranslationUnit} {rules : List ModuleRule} {s : Scope}
    (h : ofUnit unit rules = .ok s) {d : Decl} (hd : d ∈ s.table.stubs) :
    d ∈ unit.children ∧ d.isStub = true := by
  obtain ⟨ht, _⟩ := ofUnit_eq_ok h
  exact ⟨Table.mem_children_of_ofUnit ht d (List.mem_append_right _ hd),
    (Table.wellFormed_of_ofUnit ht).announced d hd⟩

/-- Bare forward declarations make bare stubs. -/
theorem hasBareStubs_of_ofUnit {unit : TranslationUnit} {rules : List ModuleRule} {s : Scope}
    (h : ofUnit unit rules = .ok s) (hb : unit.HasBareForwards) : s.HasBareStubs := by
  intro d hd
  obtain ⟨hmem, hstub⟩ := isStub_of_ofUnit h hd
  unfold Decl.isStub at hstub
  rcases Bool.or_eq_true_iff.1 hstub with hf | hk
  · exact hb d hmem hf
  · unfold Decl.isBare
    cases hkind : d.kind <;> simp_all

/-! ## §3. Declarations of one kind. -/

variable {s : Scope} {usr : Usr} {d : Decl}

/-- A typedef is found if its USR leads to one. -/
theorem typedef_eq_ok_iff {type : TypeExpr} :
    s.typedef usr = .ok (d, type) ↔ s.table.find? usr = some d ∧ d.kind = .typedef type := by
  rw [← Table.find_eq_ok_iff]
  unfold typedef
  grind

theorem record_eq_ok_iff {fields : List Decl} {tag : TagKind} :
    s.record usr = .ok (d, fields, tag) ↔
      s.table.find? usr = some d ∧ d.kind = .record fields tag := by
  rw [← Table.find_eq_ok_iff]
  unfold record
  grind

theorem enum_eq_ok_iff {integerType : Option TypeExpr} {enumerators : List Decl} :
    s.enum usr = .ok (d, integerType, enumerators) ↔
      s.table.find? usr = some d ∧
        ∃ isClosed, d.kind = .enum integerType isClosed enumerators := by
  rw [← Table.find_eq_ok_iff]
  unfold enum
  grind

/-- The interface of a USR is its definition, if that is an interface. -/
theorem definedInterface?_eq_some_iff (hs : s.WellFormed) :
    s.definedInterface? usr = some d ↔
      d ∈ s.table.definitions ∧ d.usr = usr ∧ d.isInterface = true := by
  unfold definedInterface?
  rw [Option.filter_eq_some_iff]
  constructor
  · rintro ⟨hd, hi⟩
    exact ⟨Table.mem_of_definition? hd, Table.usr_of_definition? hd, hi⟩
  · rintro ⟨hd, rfl, hi⟩
    exact ⟨hs.table.definition?_of_mem hd, hi⟩

/-- A bare stub is no typedef, so a typedef that is found is a definition. -/
theorem WellFormed.mem_of_typedef (hb : s.HasBareStubs)
    {type : TypeExpr} (h : s.typedef usr = .ok (d, type)) :
    d ∈ s.table.definitions ∧ d.usr = usr := by
  obtain ⟨hf, hk⟩ := typedef_eq_ok_iff.1 h
  refine ⟨?_, Table.usr_of_find? hf⟩
  rcases Table.mem_of_find? hf with hm | ⟨hm, _⟩
  · exact hm
  · have := hb d hm
    simp [Decl.isBare, hk] at this

/-- An enum with enumerators that is found is a definition. -/
theorem WellFormed.mem_of_enum (hb : s.HasBareStubs) {integerType : Option TypeExpr}
    {e : Decl} {es : List Decl} (h : s.enum usr = .ok (d, integerType, e :: es)) :
    d ∈ s.table.definitions ∧ d.usr = usr := by
  obtain ⟨hf, isClosed, hk⟩ := enum_eq_ok_iff.1 h
  refine ⟨?_, Table.usr_of_find? hf⟩
  rcases Table.mem_of_find? hf with hm | ⟨hm, _⟩
  · exact hm
  · have := hb d hm
    simp [Decl.isBare, hk] at this

end Scope

end ObjcBindings
