/-
  ObjcBindings.Proofs.SpelledNames
  ────────────────────────────────
  **A TYPE THAT CROSSES IS SPELLED, AND NAMES ONLY WHAT IS PLANNED.**

  A spelling follows typedefs, pointers and arrays.  Below a type that crosses
  these chains end, so no typedef comes up twice and the spelling never fails
  for being circular.  What the spellings name depends on the region of types
  that they stay in.  In the region of covered types it is PLACEABLE: the facts
  under which the plan gives the declaration a place.

    • `NamesIn.rawType`, `NamesIn.safeForm` — a type of a region that crosses has
      a raw and a safe spelling, and both name what the region allows,
    • `rawType_names`, `safeForm_names` — for covered types that is placeable
      declarations only,
    • `write_ok` — a spelling is written wherever its declarations have modules.
-/
import ObjcBindings.Interop.Spelling
import ObjcBindings.Proofs.Crossing
import ObjcBindings.Proofs.ScopeContents

namespace ObjcBindings

open Relation (ReflTransGen TransGen)
open Text

/-! ## §1. Names in a spelling. -/

/-- The names that a type mentions, with the declarations they stand for. -/
def RustType.names : RustType → List (String × Decl)
  | .fixed _ => []
  | .named ident d => [(ident, d)]
  | .pointer target => target.names
  | .array element _ => element.names

/-- A spelling whose declarations have modules can be written everywhere. -/
theorem Scope.write_ok (s : Scope) (current : String) :
    ∀ {r : RustType}, (∀ x ∈ r.names, ∃ module, s.moduleOf x.2 = .ok module) →
      ∃ text, s.write current r = .ok text
  | .fixed text, _ => ⟨text, rfl⟩
  | .named ident d, h => by
      obtain ⟨module, hm⟩ : ∃ module, s.moduleOf d = .ok module := h _ List.mem_cons_self
      refine ⟨qualifyIn module ident current, ?_⟩
      rw [write, qualify, hm]
  | .pointer target, h => by
      obtain ⟨text, ht⟩ := s.write_ok current (r := target) h
      refine ⟨"*mut " ++ text, ?_⟩
      rw [write, ht]
      rfl
  | .array element size, h => by
      obtain ⟨text, ht⟩ := s.write_ok current (r := element) h
      refine ⟨"[" ++ text ++ "; " ++ toString size.toNat ++ "]", ?_⟩
      rw [write, ht]
      rfl

/-! ## §2. Typedefs on the way to a spelling. -/

namespace Scope

/-- A spelling of the second type goes on with the first. -/
inductive Below (s : Scope) : TypeExpr → TypeExpr → Prop where
  | wrapped {w : Wrapper} {inner : TypeExpr} : Below s inner (.wrapped w inner)
  | typedef {name : String} {usr : Usr} {d : Decl} {type : TypeExpr}
      (found : s.typedef usr = .ok (d, type)) (plain : Idiom.detect? d.name type = none) :
      Below s type (.typedef name usr)
  | pointer {pointee : TypeExpr} (shape : ¬ (TypeExpr.pointer pointee).isSelShape = true) :
      Below s pointee (.pointer pointee)
  | decayed {pointee : TypeExpr} : Below s pointee (.decayed pointee)
  | array {element : TypeExpr} {size : UInt64} : Below s element (.constantArray element size)

variable {s : Scope} {use : Use} {t t' : TypeExpr} {path : List Usr} {name : String}
  {usr : Usr} {d : Decl} {type : TypeExpr}

theorem Below.inside (h : s.Below t' t) : s.Inside t' t := by
  intro use
  cases h with
  | wrapped => exact ⟨use, .wrapped⟩
  | typedef found plain => exact ⟨use, .typedef found plain⟩
  | pointer shape => exact ⟨.pointee, .pointer shape⟩
  | decayed => exact ⟨.pointee, .decayed⟩
  | array => exact ⟨.value, .array⟩

/-- Where every chain of needed types ends, every spelling ends. -/
theorem acc_below_of_acc {x : Use × TypeExpr} (h : Acc s.NeededFor x) : Acc s.Below x.2 :=
  Subrelation.accessible Below.inside (acc_inside_of_acc h)

/-- No typedef of `path` comes up on the way to a spelling of `t`. -/
def Fresh (s : Scope) (path : List Usr) (t : TypeExpr) : Prop :=
  ∀ usr ∈ path, ∀ name, ¬ ReflTransGen s.Below (.typedef name usr) t

theorem fresh_nil (t : TypeExpr) : s.Fresh [] t :=
  fun _ h => absurd h List.not_mem_nil

theorem Fresh.below (h : s.Fresh path t) (ht' : s.Below t' t) : s.Fresh path t' :=
  fun usr husr name hr => h usr husr name (hr.tail ht')

theorem Fresh.not_mem (h : s.Fresh path (.typedef name usr)) : usr ∉ path :=
  fun hmem => h usr hmem name .refl

/-- A typedef that crosses is not met again after it was entered. -/
theorem Fresh.enter (h : s.Fresh path (.typedef name usr))
    (found : s.typedef usr = .ok (d, type)) (plain : Idiom.detect? d.name type = none)
    (hc : s.Crosses use type) : s.Fresh (usr :: path) type := by
  intro other hother name' hr
  -- A typedef met again below itself would be a circle of needed types.
  rcases List.mem_cons.1 hother with rfl | hother
  · have hcycle : TransGen s.Below type type := .head' (.typedef found plain) hr
    exact not_transGen_self_of_acc (acc_below_of_acc hc.acc) hcycle
  · exact h.below (.typedef found plain) other hother name' hr

/-- Whether a type that crosses travels as an object pointer is decided. -/
theorem isObjectLike_ok (h : s.Crosses use t) (hf : s.Fresh path t) :
    ∃ b, s.isObjectLike path t = .ok b := by
  induction h generalizing path with
  | wrapped _ ih =>
      rw [isObjectLike]
      exact ih (hf.below .wrapped)
  | idiom found isIdiom =>
      obtain ⟨idiom, hi⟩ := Option.isSome_iff_exists.1 isIdiom
      exact ⟨idiom.isObject, by rw [isObjectLike]; grind⟩
  | typedef found plain below ih =>
      obtain ⟨b, hb⟩ := ih (hf.enter found plain below)
      have hp := hf.not_mem
      exact ⟨b, by rw [isObjectLike]; grind⟩
  | object _ => exact ⟨true, by rw [isObjectLike]⟩
  | primitive _ _ _ => exact ⟨false, by simp [isObjectLike]⟩
  | void => exact ⟨false, by simp [isObjectLike]⟩
  | selector _ => exact ⟨false, by simp [isObjectLike]⟩
  | pointer _ _ => exact ⟨false, by simp [isObjectLike]⟩
  | decayed _ _ => exact ⟨false, by simp [isObjectLike]⟩
  | behind _ _ => exact ⟨false, by simp [isObjectLike]⟩
  | record _ _ _ _ _ _ => exact ⟨false, by simp [isObjectLike]⟩
  | enum _ _ _ => exact ⟨false, by simp [isObjectLike]⟩
  | array _ _ => exact ⟨false, by simp [isObjectLike]⟩

/-! ## §3. Raw spellings. -/

/-- Spellings of the types of `region` do not leave it, and `good` holds of
everything that a type of `region` that crosses can name. -/
structure NamesIn (s : Scope) (region : TypeExpr → Prop) (good : String → Decl → Prop) :
    Prop where
  below : ∀ {t t' : TypeExpr}, s.Below t' t → region t → region t'
  typedef : ∀ {use : Use} {name : String} {usr : Usr} {d : Decl} {type : TypeExpr},
    region (.typedef name usr) → s.typedef usr = .ok (d, type) →
    Idiom.detect? d.name type = none → s.isMerged usr = false → s.Crosses use type →
    good (Ident.escape d.name) d
  record : ∀ {usr : Usr} {d : Decl} {fields : List Decl} {tag : TagKind},
    region (.record usr) → s.record usr = .ok (d, fields, tag) → tag ≠ .union →
    good (s.tagName d) d
  enum : ∀ {usr : Usr} {d : Decl} {integerType : TypeExpr} {e : Decl} {es : List Decl},
    region (.enum usr) → s.enum usr = .ok (d, some integerType, e :: es) →
    s.Crosses .value integerType → good (s.tagName d) d
  interface : ∀ {usr : Usr} {d : Decl}, s.definedInterface? usr = some d →
    good (Ident.escape d.name) d

variable {region : TypeExpr → Prop} {good : String → Decl → Prop}

/-- A record other than a union is spelled by its name. -/
theorem NamesIn.recordType (hn : s.NamesIn region good) {fields : List Decl} {tag : TagKind}
    (found : s.record usr = .ok (d, fields, tag)) (tagged : tag ≠ .union)
    (hr : region (.record usr)) :
    ∃ r, s.recordType usr = .ok r ∧ ∀ x ∈ r.names, good x.1 x.2 := by
  refine ⟨.named (s.tagName d) d, by rw [Scope.recordType, found]; rfl, ?_⟩
  intro x hx
  rw [List.mem_singleton.1 hx]
  exact hn.record hr found tagged

/-- An enum that crosses is spelled by its name. -/
theorem NamesIn.enumType (hn : s.NamesIn region good) {integerType : TypeExpr} {e : Decl}
    {es : List Decl} (found : s.enum usr = .ok (d, some integerType, e :: es))
    (below : s.Crosses .value integerType) (hr : region (.enum usr)) :
    ∃ r, s.enumType usr = .ok r ∧ ∀ x ∈ r.names, good x.1 x.2 := by
  refine ⟨.named (s.tagName d) d, by rw [Scope.enumType, found]; rfl, ?_⟩
  intro x hx
  rw [List.mem_singleton.1 hx]
  exact hn.enum hr found below

/-- A typedef that is written under its own name. -/
theorem NamesIn.ofDecl (hn : s.NamesIn region good) (found : s.typedef usr = .ok (d, type))
    (plain : Idiom.detect? d.name type = none) (separate : s.isMerged usr = false)
    (below : s.Crosses use type) (hr : region (.typedef name usr)) :
    ∀ x ∈ (RustType.ofDecl d).names, good x.1 x.2 := by
  intro x hx
  rw [List.mem_singleton.1 hx]
  exact hn.typedef hr found plain separate below

/-- **A type that crosses has a raw spelling**, and what it names is good. -/
theorem NamesIn.rawType (hn : s.NamesIn region good) (h : s.Crosses use t)
    (hf : s.Fresh path t) (hr : region t) :
    ∃ r, s.rawType path t = .ok r ∧ ∀ x ∈ r.names, good x.1 x.2 := by
  induction h generalizing path with
  | wrapped _ ih =>
      rw [Scope.rawType]
      exact ih (hf.below .wrapped) (hn.below .wrapped hr)
  | @primitive _ name p rust known _ spelled =>
      have hspelled : primitiveSpelling name = .ok rust := by
        simp [primitiveSpelling, known, spelled]
      refine ⟨.fixed rust, ?_, by simp [RustType.names]⟩
      rw [Scope.rawType, hspelled]
      rfl
  | void => exact ⟨.fixed "libc::c_void", by rw [Scope.rawType]; rfl, by simp [RustType.names]⟩
  | idiom found isIdiom =>
      obtain ⟨idiom, hi⟩ := Option.isSome_iff_exists.1 isIdiom
      exact ⟨.fixed idiom.raw, by rw [Scope.rawType]; grind, by simp [RustType.names]⟩
  | @typedef use name usr d type found plain below ih =>
      have hp := hf.not_mem
      have henter := hf.enter found plain below
      -- Only a typedef that is not merged and is no object is named itself.
      cases hm : s.isMerged usr with
      | true =>
          obtain ⟨r, hr, hnames⟩ := ih henter (hn.below (.typedef found plain) hr)
          exact ⟨r, by rw [Scope.rawType]; grind, hnames⟩
      | false =>
          obtain ⟨b, ho⟩ := isObjectLike_ok below henter
          cases b with
          | true =>
              exact ⟨.fixed objectPointer, by rw [Scope.rawType]; grind,
                by simp [RustType.names]⟩
          | false =>
              exact ⟨.ofDecl d, by rw [Scope.rawType]; grind,
                hn.ofDecl found plain hm below hr⟩
  | selector shape =>
      exact ⟨.fixed selectorType, by rw [Scope.rawType, if_pos shape],
        by simp [RustType.names]⟩
  | @pointer _ pointee _ ih =>
      rw [Scope.rawType]
      by_cases shape : (TypeExpr.pointer pointee).isSelShape = true
      · exact ⟨.fixed selectorType, by rw [if_pos shape], by simp [RustType.names]⟩
      · obtain ⟨r, hr, hnames⟩ :=
          ih (hf.below (.pointer shape)) (hn.below (.pointer shape) hr)
        rw [if_neg shape]
        -- A pointer to nothing known has a spelling of its own.
        by_cases hv : pointee.stripWrappers.isVoid = true
        · exact ⟨.fixed "*mut libc::c_void", by rw [if_pos hv], by simp [RustType.names]⟩
        · exact ⟨.pointer r, by rw [if_neg hv, hr]; rfl, hnames⟩
  | @decayed _ pointee _ ih =>
      obtain ⟨r, hr, hnames⟩ := ih (hf.below .decayed) (hn.below .decayed hr)
      rw [Scope.rawType]
      by_cases hv : pointee.stripWrappers.isVoid = true
      · exact ⟨.fixed "*mut libc::c_void", by rw [if_pos hv], by simp [RustType.names]⟩
      · exact ⟨.pointer r, by rw [if_neg hv, hr]; rfl, hnames⟩
  | object _ => exact ⟨.fixed objectPointer, by rw [Scope.rawType], by simp [RustType.names]⟩
  | behind found tagged =>
      rw [Scope.rawType]
      exact hn.recordType found tagged hr
  | record found tagged _ _ _ _ =>
      rw [Scope.rawType]
      exact hn.recordType found tagged hr
  | enum found below _ =>
      rw [Scope.rawType]
      exact hn.enumType found below hr
  | @array _ element size _ ih =>
      obtain ⟨r, hr, hnames⟩ := ih (hf.below .array) (hn.below .array hr)
      exact ⟨.array r size, by rw [Scope.rawType, hr]; rfl, hnames⟩

/-! ## §4. Safe spellings. -/

/-- A pointer to an object names at most its interface, which is defined. -/
theorem NamesIn.objectPointerType (hn : s.NamesIn region good) (pointee : TypeExpr) :
    ∀ x ∈ (s.objectPointerType pointee).names, good x.1 x.2 := by
  intro x hx
  unfold Scope.objectPointerType at hx
  split at hx
  · split at hx
    · next d hd =>
      rw [List.mem_singleton.1 hx]
      obtain ⟨usr, _, hd⟩ := Option.bind_eq_some_iff.1 hd
      exact hn.interface hd
    · split at hx
      · simp [RustType.names] at hx
      · simp [RustType.names] at hx
  · simp [RustType.names] at hx

/-- The safe spelling of an idiom names nothing. -/
theorem idiom_safe_names (idiom : Idiom) : idiom.safe.type.names = [] := by
  cases idiom <;> rfl

/-- A raw spelling that is also the safe one. -/
theorem plain_names {raw : Except Failure RustType}
    (h : ∃ r, raw = .ok r ∧ ∀ x ∈ r.names, good x.1 x.2) :
    ∃ form : SafeForm, raw.map (⟨·, .identity⟩) = .ok form ∧
      ∀ x ∈ form.type.names, good x.1 x.2 := by
  obtain ⟨r, rfl, hnames⟩ := h
  exact ⟨⟨r, .identity⟩, rfl, hnames⟩

/-- **A type that crosses has a safe spelling**, and what it names is good. -/
theorem NamesIn.safeForm (hn : s.NamesIn region good) (h : s.Crosses use t)
    (hf : s.Fresh path t) (hr : region t) :
    ∃ form, s.safeForm path t = .ok form ∧ ∀ x ∈ form.type.names, good x.1 x.2 := by
  induction h generalizing path with
  | wrapped _ ih =>
      rw [Scope.safeForm]
      exact ih (hf.below .wrapped) (hn.below .wrapped hr)
  | @primitive use _ _ _ known sized spelled =>
      have hcross : s.Crosses use _ := .primitive known sized spelled
      have hraw := hn.rawType hcross hf hr
      rw [Scope.rawType] at hraw
      rw [Scope.safeForm]
      exact plain_names hraw
  | void =>
      have hraw := hn.rawType .void hf hr
      rw [Scope.rawType] at hraw
      rw [Scope.safeForm]
      exact plain_names hraw
  | idiom found isIdiom =>
      obtain ⟨idiom, hi⟩ := Option.isSome_iff_exists.1 isIdiom
      exact ⟨idiom.safe, by rw [Scope.safeForm]; grind, by simp [idiom_safe_names]⟩
  | @typedef use name usr d type found plain below ih =>
      have hp := hf.not_mem
      have henter := hf.enter found plain below
      -- A merged typedef is written as its tag, any other under its own name.
      cases hm : s.isMerged usr with
      | true =>
          obtain ⟨form, hform, hnames⟩ := ih henter (hn.below (.typedef found plain) hr)
          exact ⟨form, by rw [Scope.safeForm]; grind, hnames⟩
      | false =>
          obtain ⟨b, ho⟩ := isObjectLike_ok below henter
          exact ⟨⟨.ofDecl d, if b then .object else .identity⟩, by rw [Scope.safeForm]; grind,
            hn.ofDecl found plain hm below hr⟩
  | @selector use _ shape =>
      have hcross : s.Crosses use _ := .selector shape
      rw [Scope.safeForm]
      exact plain_names (hn.rawType hcross hf hr)
  | @pointer use _ below _ =>
      have hcross : s.Crosses use _ := .pointer below
      rw [Scope.safeForm]
      exact plain_names (hn.rawType hcross hf hr)
  | @decayed use _ below _ =>
      have hcross : s.Crosses use _ := .decayed below
      rw [Scope.safeForm]
      exact plain_names (hn.rawType hcross hf hr)
  | @object _ pointee _ =>
      exact ⟨⟨s.objectPointerType pointee, .object⟩, by rw [Scope.safeForm],
        hn.objectPointerType pointee⟩
  | behind found tagged =>
      rw [Scope.safeForm]
      exact plain_names (hn.recordType found tagged hr)
  | record found tagged _ _ _ _ =>
      rw [Scope.safeForm]
      exact plain_names (hn.recordType found tagged hr)
  | enum found below _ =>
      rw [Scope.safeForm]
      exact plain_names (hn.enumType found below hr)
  | @array use element size below _ =>
      have hcross : s.Crosses use (.constantArray element size) := .array below
      rw [Scope.safeForm]
      exact plain_names (hn.rawType hcross hf hr)

/-! ## §5. Covered types. -/

/-- The facts under which the plan gives a declaration a place, and the name
that it is declared under. -/
inductive Placeable (s : Scope) : String → Decl → Prop where
  | typedef {d : Decl} {type : TypeExpr} {use : Use} (defined : d ∈ s.table.definitions)
      (kind : d.kind = .typedef type) (used : d.usr ∈ s.used.typedefs)
      (plain : Idiom.detect? d.name type = none) (separate : s.isMerged d.usr = false)
      (crosses : s.Crosses use type) : Placeable s (Ident.escape d.name) d
  | struct {d : Decl} {fields : List Decl} {tag : TagKind}
      (found : s.table.find? d.usr = some d) (kind : d.kind = .record fields tag)
      (used : d.usr ∈ s.used.structs) : Placeable s (s.tagName d) d
  | enum {d : Decl} {integerType : Option TypeExpr} {isClosed : Bool}
      {enumerators : List Decl} (defined : d ∈ s.table.definitions)
      (kind : d.kind = .enum integerType isClosed enumerators) (used : d.usr ∈ s.used.enums)
      (crosses : s.Crosses .value (.enum d.usr)) : Placeable s (s.tagName d) d
  | interface {d : Decl} (defined : d ∈ s.table.definitions) (kind : d.isInterface = true) :
      Placeable s (Ident.escape d.name) d

/-- Behind a covered typedef its type is covered. -/
theorem WellFormed.covers_typedef (hs : s.WellFormed) (found : s.typedef usr = .ok (d, type))
    (hc : s.used.Covers s.table (.type (.typedef name usr))) :
    s.used.Covers s.table (.type type) := by
  obtain ⟨hf, hk⟩ := typedef_eq_ok_iff.1 found
  have hused : s.used.Has (.typedef usr) := hc _ (.self (.typedef name usr))
  exact Table.covers_of_opens hs.used hused (by simp)
    (.typedef (Table.find_eq_ok_iff.2 hf) hk) _ List.mem_cons_self

/-- What is below a covered type is covered. -/
theorem WellFormed.covers_below (hs : s.WellFormed) (h : s.Below t' t)
    (hc : s.used.Covers s.table (.type t)) : s.used.Covers s.table (.type t') := by
  cases h with
  | wrapped => exact hc.of_part List.mem_cons_self
  | typedef found _ => exact hs.covers_typedef found hc
  | pointer _ => exact hc.of_part List.mem_cons_self
  | decayed => exact hc.of_part List.mem_cons_self
  | array => exact hc.of_part List.mem_cons_self

/-- **Covered types name placeable declarations only.** -/
theorem namesIn_covered (hs : s.WellFormed) (hb : s.HasBareStubs) :
    s.NamesIn (fun t => s.used.Covers s.table (.type t)) s.Placeable where
  below := hs.covers_below
  typedef hc found plain separate below := by
    obtain ⟨hdef, husr⟩ := WellFormed.mem_of_typedef hb found
    obtain ⟨_, hk⟩ := typedef_eq_ok_iff.1 found
    have hused : s.used.Has (.typedef _) := hc _ (.self (.typedef _ _))
    exact .typedef hdef hk (husr ▸ hused) plain (husr ▸ separate) below
  record hc found tagged := by
    obtain ⟨hf, hk⟩ := record_eq_ok_iff.1 found
    have husr := Table.usr_of_find? hf
    have hused : s.used.Has (.struct _) :=
      hc _ (.self (.struct (Table.find_eq_ok_iff.2 hf) hk tagged))
    exact .struct (husr ▸ hf) hk (husr ▸ hused)
  enum hc found below := by
    obtain ⟨hdef, husr⟩ := WellFormed.mem_of_enum hb found
    obtain ⟨_, isClosed, hk⟩ := enum_eq_ok_iff.1 found
    have hused : s.used.Has (.enum _) := hc _ (.self (.enum _))
    exact .enum hdef hk (husr ▸ hused) (husr ▸ .enum found below)
  interface hd := by
    obtain ⟨hdef, _, hkind⟩ := (definedInterface?_eq_some_iff hs).1 hd
    exact .interface hdef hkind

/-- **A covered type that crosses has a raw spelling, which names placeable
declarations only.** -/
theorem rawType_names (hs : s.WellFormed) (hb : s.HasBareStubs) (h : s.Crosses use t)
    (hf : s.Fresh path t) (hc : s.used.Covers s.table (.type t)) :
    ∃ r, s.rawType path t = .ok r ∧ ∀ x ∈ r.names, s.Placeable x.1 x.2 :=
  (namesIn_covered hs hb).rawType h hf hc

/-- **A covered type that crosses has a safe spelling, which names placeable
declarations only.** -/
theorem safeForm_names (hs : s.WellFormed) (hb : s.HasBareStubs) (h : s.Crosses use t)
    (hf : s.Fresh path t) (hc : s.used.Covers s.table (.type t)) :
    ∃ form, s.safeForm path t = .ok form ∧ ∀ x ∈ form.type.names, s.Placeable x.1 x.2 :=
  (namesIn_covered hs hb).safeForm h hf hc

end Scope

end ObjcBindings
