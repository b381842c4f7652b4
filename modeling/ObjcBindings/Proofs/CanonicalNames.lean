/-
  ObjcBindings.Proofs.CanonicalNames
  ────────────────────────────────
  **A TAG AND THE TYPEDEFS THAT NAME IT.**

  A record or enum is written under the name of the first typedef that names
  it and matches it.  Later typedefs are compared with that name and not with
  the tag, so that of two typedefs of one tag, both of which match it, one may
  be merged with the tag and the other not:

      typedef struct _Size Size;      -- merged: the struct is written as Size
      typedef struct _Size _Size;     -- an alias of Size

  Main results:
    • `lookup_tagNames` — the naming typedef is the first definition that names
      the tag,
    • `isMerged_iff_canonicalName?` — a typedef is merged if and only if it
      matches its tag and has the name of the first one,
    • `nameShared_of_ofUnit` — it is merged if and only if it has the name that
      its tag is written under.
-/
import ObjcBindings.Proofs.Registrations
import ObjcBindings.Proofs.TypeNames

namespace ObjcBindings

open Text

/-! ## §1. The first typedef that matches a tag. -/

namespace Decl

/-- `d` is a typedef of the tag `r` that matches it: the tag is anonymous, or
both have one name up to leading underscores. -/
def namesTag (d r : Decl) : Bool :=
  match d.kind with
  | .typedef type =>
      type.tag? == some r.usr &&
        (Ident.isAnonymous r.name
          || Ident.stripUnderscores r.name == Ident.stripUnderscores d.name)
  | _ => false

/-- `r` is a record where the type refers to a record, and an enum where it
refers to an enum. -/
def isTagOf (r : Decl) (type : TypeExpr) : Bool :=
  match type.stripWrappers, r.kind with
  | .record _, .record _ _ | .enum _, .enum _ _ _ => true
  | _, _ => false

variable {d d' r : Decl} {type : TypeExpr}

/-- A typedef of a tag names it if the tag is anonymous or has the same name. -/
theorem namesTag_of_typedef (hk : d.kind = .typedef type) (htag : type.tag? = some r.usr) :
    d.namesTag r = (Ident.isAnonymous r.name
      || Ident.stripUnderscores r.name == Ident.stripUnderscores d.name) := by
  simp [namesTag, hk, htag]

/-- Whether a typedef of a tag matches depends on its name alone. -/
theorem namesTag_of_name_eq (hk : d.kind = .typedef type) (htag : type.tag? = some r.usr)
    (h : d'.namesTag r = true) (hname : d.name = d'.name) : d.namesTag r = true := by
  rw [namesTag_of_typedef hk htag, hname]
  unfold namesTag at h
  split at h
  · exact (Bool.and_eq_true_iff.1 h).2
  · cases h

end Decl

/-- The tag that a definition names, if it names one. -/
theorem Table.namedTag?_eq_some_iff {table : Table} {d r : Decl} {usr : Usr}
    (hr : table.find? usr = some r) :
    table.namedTag? d = some usr ↔ d.namesTag r = true := by
  obtain rfl := Table.usr_of_find? hr
  unfold Table.namedTag? Decl.namesTag
  grind

namespace Scope

variable {unit : TranslationUnit} {rules : List ModuleRule} {s : Scope} {t r : Decl}
  {type : TypeExpr} {usr : Usr}

/-- **The typedef that gives a tag its name is the first definition that names
the tag.** -/
theorem lookup_tagNames (hs : s.WellFormed) (hr : s.table.find? usr = some r) :
    s.tagNames.lookup usr = s.table.definitions.find? (·.namesTag r) := by
  rw [hs.tagNames, Table.tagNames]
  induction s.table.definitions with
  | nil => rfl
  | cons d ds ih =>
      have hd := Table.namedTag?_eq_some_iff (d := d) hr
      rw [List.find?_cons, List.filterMap_cons]
      cases hnames : d.namesTag r with
      | true =>
          rw [hd.2 hnames]
          simp
      | false =>
          cases hnamed : s.table.namedTag? d with
          | none => simpa using ih
          | some tag =>
              -- The definition names another tag.
              have hne : ¬ usr = tag := by
                rintro rfl
                rw [hd.1 hnamed] at hnames
                cases hnames
              simpa [List.lookup_cons, beq_false_of_ne hne] using ih

/-- A tag has the name of the first typedef that names it. -/
theorem canonicalName?_eq (hs : s.WellFormed) (hr : s.table.find? usr = some r) :
    s.canonicalName? usr = (s.table.definitions.find? (·.namesTag r)).map Decl.name := by
  rw [canonicalName?, lookup_tagNames hs hr]

/-! ## §2. Merged typedefs. -/

/-- The name that a tag is written under, before keywords are made usable: the
name that typedefs give it, else its own. -/
def writtenName (s : Scope) (r : Decl) : String :=
  (s.canonicalName? r.usr).getD r.name

section Typedef

variable (hs : s.WellFormed) (ht : t ∈ s.table.definitions) (hk : t.kind = .typedef type)
  (htag : type.tag? = some usr) (hr : s.table.find? usr = some r)
include hs ht hk htag hr

omit hk htag in
/-- A typedef that matches its tag gives it a name, or another one did before. -/
theorem exists_canonicalName? (h : t.namesTag r = true) :
    ∃ name, s.canonicalName? usr = some name := by
  rw [canonicalName?_eq hs hr, ← Option.isSome_iff_exists, Option.isSome_map, List.find?_isSome]
  exact ⟨t, ht, h⟩

omit ht in
/-- A typedef of the name that typedefs gave its tag matches the tag. -/
theorem namesTag_of_canonicalName? (h : s.canonicalName? usr = some t.name) :
    t.namesTag r = true := by
  rw [canonicalName?_eq hs hr, Option.map_eq_some_iff] at h
  obtain ⟨first, hfirst, hname⟩ := h
  obtain rfl := Table.usr_of_find? hr
  have hnames : first.namesTag r = true := (find?_eq_some_iff_isFirst.1 hfirst).1
  exact Decl.namesTag_of_name_eq hk htag hnames hname.symm

/-- **A typedef is merged if and only if it has the name that typedefs gave its
tag.** -/
theorem isMerged_iff_canonicalName? :
    s.isMerged t.usr = true ↔ s.canonicalName? usr = some t.name := by
  unfold isMerged
  rw [List.any_eq_true, hs.tagNames, Table.tagNames]
  simp only [List.mem_filterMap, Option.map_eq_some_iff, Prod.exists, Prod.mk.injEq,
    Bool.and_eq_true, beq_iff_eq]
  constructor
  · rintro ⟨_, _, ⟨d, hd, tag, hnamed, rfl, rfl⟩, husr, hname⟩
    -- The merged definition of the USR is the typedef itself.
    obtain rfl := hs.table.eq_of_usr_eq hd ht husr
    have htag' : type.tag? = some tag := by
      unfold Table.namedTag? at hnamed
      grind
    rw [htag] at htag'
    cases htag'
    exact hname
  · intro hname
    have hnames := namesTag_of_canonicalName? hs hk htag hr hname
    exact ⟨usr, t, ⟨t, ht, usr, (Table.namedTag?_eq_some_iff hr).2 hnames, rfl, rfl⟩, rfl, hname⟩

/-- A tag without a name from typedefs matches none of them, so it has a name
of its own that is no name of its typedefs. -/
theorem of_canonicalName?_eq_none (h : s.canonicalName? usr = none) :
    Ident.isAnonymous r.name = false ∧ t.name ≠ r.name := by
  have hnames : t.namesTag r = false := by
    rw [Bool.eq_false_iff]
    intro hnames
    obtain ⟨name, hname⟩ := exists_canonicalName? hs ht hr hnames
    rw [h] at hname
    cases hname
  obtain rfl := Table.usr_of_find? hr
  rw [Decl.namesTag_of_typedef hk htag, Bool.or_eq_false_iff] at hnames
  refine ⟨hnames.1, fun hname => ?_⟩
  rw [hname] at hnames
  simp at hnames

/-- **A typedef is merged if and only if it has the name that its tag is written
under.** -/
theorem isMerged_iff_writtenName : s.isMerged t.usr = true ↔ t.name = s.writtenName r := by
  have husr : r.usr = usr := Table.usr_of_find? hr
  rw [isMerged_iff_canonicalName? hs ht hk htag hr, writtenName, husr]
  cases hname : s.canonicalName? usr with
  | some name => simp [eq_comm]
  | none =>
      have hne := (of_canonicalName?_eq_none hs ht hk htag hr hname).2
      simp [hne]

/-- A tag with a typedef is written under its written name. -/
theorem tagName_eq_writtenName : s.tagName r = Ident.escape (s.writtenName r) := by
  have husr : r.usr = usr := Table.usr_of_find? hr
  rw [tagName, writtenName, husr]
  cases hname : s.canonicalName? usr with
  | some name => rfl
  | none =>
      have hnamed := (of_canonicalName?_eq_none hs ht hk htag hr hname).1
      simp [hnamed]

end Typedef

/-! ## §3. References. -/

/-- Wrappers leave the raw type. -/
theorem rawType_stripWrappers (s : Scope) (path : List Usr) (type : TypeExpr) :
    s.rawType path type = s.rawType path type.stripWrappers := by
  induction type using TypeExpr.wrapper_induction with
  | wrapped w inner ih =>
      rw [rawType, ih]
      rfl
  | plain type plain => rw [TypeExpr.stripWrappers_of_plain plain]

/-- Wrappers outside leave the safe form. -/
theorem safeForm_stripWrappers (s : Scope) (path : List Usr) (type : TypeExpr) :
    s.safeForm path type = s.safeForm path type.stripWrappers := by
  induction type using TypeExpr.wrapper_induction with
  | wrapped w inner ih =>
      rw [safeForm, ih]
      rfl
  | plain type plain => rw [TypeExpr.stripWrappers_of_plain plain]

/-- No typedef of a tag is an idiom of the language. -/
theorem detect?_of_tag (name : String) (htag : type.tag? = some usr) :
    Idiom.detect? name type = none := by
  unfold TypeExpr.tag? at htag
  unfold Idiom.detect? TypeExpr.isBoolShape TypeExpr.isBuiltin TypeExpr.isIdShape
    TypeExpr.isClassShape TypeExpr.isObjectPointerOf TypeExpr.isSelShape
  grind

/-- A reference to a tag is written under the name of the tag. -/
theorem rawType_of_tag (hr : s.table.find? usr = some r) (htag : type.tag? = some usr)
    (hkind : r.isTagOf type = true) (path : List Usr) :
    s.rawType path type = .ok (.named (s.tagName r) r) ∧
      s.safeForm path type = .ok ⟨.named (s.tagName r) r, .identity⟩ := by
  rw [rawType_stripWrappers, safeForm_stripWrappers]
  unfold TypeExpr.tag? at htag
  unfold Decl.isTagOf at hkind
  split at hkind
  · next hstrip hk =>
    rw [hstrip] at htag ⊢
    cases htag
    have hrecord : s.recordType usr = .ok (.named (s.tagName r) r) := by
      rw [recordType, record_eq_ok_iff.2 ⟨hr, hk⟩]
      rfl
    rw [rawType, safeForm, hrecord]
    exact ⟨rfl, rfl⟩
  · next hstrip hk =>
    rw [hstrip] at htag ⊢
    cases htag
    have henum : s.enumType usr = .ok (.named (s.tagName r) r) := by
      rw [enumType, enum_eq_ok_iff.2 ⟨hr, _, hk⟩]
      rfl
    rw [rawType, safeForm, henum]
    exact ⟨rfl, rfl⟩
  · cases hkind

/-- A reference to a merged typedef is one to its tag. -/
theorem rawType_of_isMerged (hs : s.WellFormed) (ht : t ∈ s.table.definitions)
    (hk : t.kind = .typedef type) (htag : type.tag? = some usr)
    (hmerged : s.isMerged t.usr = true) (name : String) :
    s.rawType [] (.typedef name t.usr) = s.rawType [t.usr] type ∧
      s.safeForm [] (.typedef name t.usr) = s.safeForm [t.usr] type := by
  have htypedef : s.typedef t.usr = .ok (t, type) :=
    typedef_eq_ok_iff.2 ⟨hs.table.find?_of_mem ht, hk⟩
  have hidiom := detect?_of_tag t.name htag
  constructor
  · rw [rawType]
    grind
  · rw [safeForm]
    grind

/-! ## §4. The shared name. -/

/-- How the typedef `t` and the tag `r` that it is a typedef of share a name. -/
structure NameShared (s : Scope) (t r : Decl) (type : TypeExpr) : Prop where
  /-- The typedef is merged if and only if it has the name of the tag. -/
  merged : s.isMerged t.usr = true ↔ t.name = s.writtenName r
  /-- The definition of the tag is written under that name. -/
  definition : s.tagName r = Ident.escape (s.writtenName r)
  /-- So are all references to a merged typedef. -/
  references : s.isMerged t.usr = true → r.isTagOf type = true → ∀ name current,
    s.raw current (.typedef name t.usr) = s.qualify (s.tagName r) r current ∧
      s.safe current (.typedef name t.usr)
        = (s.qualify (s.tagName r) r current).map (⟨·, .identity⟩)
  /-- No alias has that name. -/
  aliases : ∀ plan, s.plan = .ok plan → ∀ p ∈ plan.modules, t ∈ p.aliases →
    s.isMerged t.usr = false ∧ t.name ≠ s.writtenName r
  /-- If a typedef matches the tag, then it is the name of the first one that does. -/
  first : ∀ d, IsFirst (·.namesTag r) s.table.definitions d →
    s.canonicalName? r.usr = some d.name ∧ s.writtenName r = d.name

/-- **A typedef and its tag share a name exactly when they are merged.** -/
theorem nameShared_of_ofUnit (hunit : ofUnit unit rules = .ok s) (ht : t ∈ s.table.definitions)
    (hk : t.kind = .typedef type) (htag : type.tag? = some usr)
    (hr : s.table.find? usr = some r) : s.NameShared t r type := by
  have hs := wellFormed_of_ofUnit hunit
  have hmerged := isMerged_iff_writtenName hs ht hk htag hr
  constructor
  case merged => exact hmerged
  case definition => exact tagName_eq_writtenName hs ht hk htag hr
  case references =>
    -- A merged typedef is followed to its tag, which is written by its own name.
    intro hm hkind name current
    obtain ⟨hraw, hsafe⟩ := rawType_of_isMerged hs ht hk htag hm name
    obtain ⟨htagRaw, htagSafe⟩ := rawType_of_tag hr htag hkind [t.usr]
    rw [raw, safe, hraw, hsafe, htagRaw, htagSafe]
    exact ⟨rfl, rfl⟩
  case aliases =>
    intro plan hplan p hp halias
    obtain ⟨_, _, ⟨_, _, _, hk'⟩ | ⟨_, hseparate⟩⟩ := alias_of_plan hs hplan hp halias
    · -- An alias of an enum is not that of a typedef.
      rw [hk] at hk'
      cases hk'
    · refine ⟨hseparate, fun hname => ?_⟩
      rw [hmerged.2 hname] at hseparate
      cases hseparate
  case first =>
    intro d hd
    have husr : r.usr = usr := Table.usr_of_find? hr
    have hname : s.canonicalName? r.usr = some d.name := by
      rw [husr, canonicalName?_eq hs hr, find?_eq_some_iff_isFirst.2 hd, Option.map_some]
    exact ⟨hname, by rw [writtenName, hname, Option.getD_some]⟩

end Scope

/-! ## §5. A small unit. -/

namespace Size

/-- A struct. -/
def tag : Decl :=
  .implicit "s:Size" "_Size" (.record [.implicit "w" "w" (.field (.builtin "Int") none)] .struct)

/-- The first typedef that names it. -/
def first : Decl := .implicit "t:Size" "Size" (.typedef (.record "s:Size"))

/-- A later one, with the struct's own spelling. -/
def later : Decl := .implicit "t:_Size" "_Size" (.typedef (.record "s:Size"))

/-- Both typedefs, and a class that uses them. -/
def unit : TranslationUnit where
  children :=
    [tag, first, later,
     .implicit "c:Box" "Box" (.interface
       [.ofMethod "fit:" [.ofName "Size"] (.ofName "_Size")] [] none [])]

/-- The scope of the unit. -/
def scope : Scope where
  table := ⟨unit.children, []⟩
  used := { typedefs := ["t:Size", "t:_Size"], structs := ["s:Size"], objc := ["c:Box"] }
  rules := uiRules
  tagNames := [("s:Size", first), ("s:Size", later)]

/-- The first typedef is merged with the struct.  The later one is not, though
it is spelled as the struct: it is planned as an alias of it. -/
theorem size_nameShared :
    Scope.ofUnit unit uiRules = .ok scope ∧
      scope.NameShared first tag (.record "s:Size") ∧ scope.isMerged first.usr = true ∧
      scope.NameShared later tag (.record "s:Size") ∧ scope.isMerged later.usr = false ∧
      scope.writtenName tag = "Size" ∧
      scope.plan.map (fun plan => plan.modules.map ModulePlan.aliases) = .ok [[later]] := by
  have hunit : Scope.ofUnit unit uiRules = .ok scope := by cbv
  have htag : (TypeExpr.record "s:Size").tag? = some "s:Size" := rfl
  have hfirst : first ∈ scope.table.definitions := by simp [scope, unit]
  have hlater : later ∈ scope.table.definitions := by simp [scope, unit]
  exact ⟨hunit, Scope.nameShared_of_ofUnit hunit hfirst rfl htag rfl, by decide,
    Scope.nameShared_of_ofUnit hunit hlater rfl htag rfl, by decide, by decide, by cbv⟩

end Size

end ObjcBindings
