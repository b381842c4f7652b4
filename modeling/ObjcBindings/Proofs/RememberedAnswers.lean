/-
  ObjcBindings.Proofs.RememberedAnswers
  ────────────────────────────────
  **REMEMBERED ANSWERS ARE NEVER POISONED.**

  While records are examined inside each other, the memory holds provisional
  answers for all of them: the records on the stack.  Each of them needs the
  type in question.  So where the question comes back to a record of the
  stack, that record needs itself, does not cross, and the provisional no is
  the right answer.  A failure leaves provisional answers behind, too; but the
  records of the stack need the type that failed, so no is right for them.

      IsJust            — an answer is right, a failure has its cause, and the
                          memory stays sound
      answers_justly    — so is every verdict, for every memory that is sound
                          for the stack

  With an empty stack the memory holds right answers only, whatever was asked
  before.
-/
import ObjcBindings.Bindings.Container
import ObjcBindings.Proofs.Crossing
import ObjcBindings.Proofs.ScopeContents

namespace ObjcBindings

open Relation (ReflTransGen TransGen)

/-! ## §1. Sound memories. -/

/-- The answers about the records of `stack` are provisional, all others are
right. -/
structure Memory.Sound (s : Scope) (stack : List Usr) (m : Memory) : Prop where
  provisional : ∀ usr ∈ stack, m.lookup usr = some false
  settled : ∀ usr b, usr ∉ stack → m.lookup usr = some b →
    (b = true ↔ s.Crosses .value (.record usr))

namespace Memory

variable {s : Scope} {stack : List Usr} {m : Memory} {usr : Usr}

/-- A memory that remembers nothing is sound. -/
theorem sound_nil (s : Scope) : Memory.Sound s [] [] :=
  ⟨by simp, by simp⟩

/-- One more answer changes nothing about other records. -/
theorem lookup_cons_of_ne {other : Usr} (b : Bool) (h : other ≠ usr) :
    List.lookup other ((usr, b) :: m) = List.lookup other m := by
  rw [List.lookup_cons, beq_eq_false_iff_ne.2 h]

/-- A record that is being examined joins the stack with a provisional no. -/
theorem Sound.push (h : m.Sound s stack) :
    Memory.Sound s (usr :: stack) ((usr, false) :: m) := by
  constructor
  · intro other hother
    by_cases he : other = usr
    · rw [he, List.lookup_cons_self]
    · rw [lookup_cons_of_ne false he]
      exact h.provisional other ((List.mem_cons.1 hother).resolve_left he)
  · intro other b hother hb
    rw [List.mem_cons, not_or] at hother
    rw [lookup_cons_of_ne false hother.1] at hb
    exact h.settled other b hother.2 hb

/-- An examined record leaves the stack with its right answer. -/
theorem Sound.settle {b : Bool} (h : m.Sound s (usr :: stack)) (hnew : usr ∉ stack)
    (hb : b = true ↔ s.Crosses .value (.record usr)) :
    Memory.Sound s stack ((usr, b) :: m) := by
  constructor
  · intro other hother
    have he : other ≠ usr := fun he => hnew (he ▸ hother)
    rw [lookup_cons_of_ne b he]
    exact h.provisional other (List.mem_cons_of_mem usr hother)
  · intro other c hother hc
    by_cases he : other = usr
    · rw [he, List.lookup_cons_self] at hc
      rw [he, ← Option.some.inj hc]
      exact hb
    · rw [lookup_cons_of_ne b he] at hc
      refine h.settled other c ?_ hc
      rw [List.mem_cons, not_or]
      exact ⟨he, hother⟩

/-- A record that does not cross can leave the stack with its provisional
answer. -/
theorem Sound.abandon (h : m.Sound s (usr :: stack))
    (hno : ¬ s.Crosses .value (.record usr)) : m.Sound s stack := by
  constructor
  · exact fun other hother => h.provisional other (List.mem_cons_of_mem usr hother)
  · intro other b hother hb
    by_cases he : other = usr
    · rw [he, h.provisional usr List.mem_cons_self] at hb
      rw [he, ← Option.some.inj hb]
      simpa using hno
    · refine h.settled other b ?_ hb
      rw [List.mem_cons, not_or]
      exact ⟨he, hother⟩

end Memory

/-! ## §2. The stack of an examination. -/

namespace Scope

/-- The records of `stack` are being examined, each needs `x`, and there is
room to examine all others of the table. -/
structure Examining (s : Scope) (room : Nat) (stack : List Usr) (x : Use × TypeExpr) :
    Prop where
  distinct : stack.Nodup
  known : ∀ usr ∈ stack, usr ∈ s.table.usrs
  enough : s.room ≤ room + stack.length
  needs : ∀ usr ∈ stack, TransGen s.NeededFor x (.value, .record usr)

variable {s : Scope} {room : Nat} {stack : List Usr} {x y : Use × TypeExpr} {usr : Usr}

/-- At the start no record is examined. -/
theorem examining_start (s : Scope) (x : Use × TypeExpr) : s.Examining s.room [] x :=
  ⟨List.nodup_nil, by simp, by simp, by simp⟩

/-- What a type needs is examined in the same room. -/
theorem Examining.inner (h : s.Examining room stack x) (hy : s.NeededFor y x) :
    s.Examining room stack y :=
  ⟨h.distinct, h.known, h.enough, fun usr husr => .head hy (h.needs usr husr)⟩

/-- A record that is found is in the table. -/
theorem mem_usrs_of_record {r : Decl × List Decl × TagKind} (h : s.record usr = .ok r) :
    usr ∈ s.table.usrs := by
  unfold Scope.record at h
  split at h
  · cases h
  · next hf => exact Table.mem_usrs_of_find hf

/-- The fields of a record are examined with one room less, and the record on the stack.
-/
theorem Examining.push {d : Decl} {fields : List Decl} {tag : TagKind} {t : TypeExpr}
    (h : s.Examining (room + 1) stack (.value, .record usr))
    (found : s.record usr = .ok (d, fields, tag)) (hnew : usr ∉ stack)
    (inside : t ∈ fieldTypes fields) : s.Examining room (usr :: stack) (.value, t) := by
  have step : s.NeededFor (.value, t) (.value, .record usr) := .record found inside
  refine ⟨List.nodup_cons.2 ⟨hnew, h.distinct⟩, ?_, ?_, ?_⟩
  · intro other hother
    rcases List.mem_cons.1 hother with rfl | hother
    · exact mem_usrs_of_record found
    · exact h.known other hother
  · -- The stack grows by one where the room shrinks by one.
    have henough := h.enough
    rw [List.length_cons]
    omega
  · intro other hother
    rcases List.mem_cons.1 hother with rfl | hother
    · exact .single step
    · exact .head step (h.needs other hother)

/-- There is always room for one more record. -/
theorem Examining.room_ne_zero (h : s.Examining 0 stack x) : False := by
  -- The records of the stack are distinct and in the table, so they are few.
  have hlen : stack.length ≤ s.table.usrs.length :=
    h.distinct.length_le_of_subset h.known
  have henough := h.enough
  unfold Scope.room at henough
  omega

/-- **A provisional no is right**: a record of the stack that comes up again
needs itself. -/
theorem Examining.not_crosses (h : s.Examining room stack (.value, .record usr))
    (hmem : usr ∈ stack) : ¬ s.Crosses .value (.record usr) :=
  not_crosses_of_cycle (h.needs usr hmem)

/-- What is remembered of the record in question is right. -/
theorem Examining.known_iff {m : Memory} {b : Bool}
    (h : s.Examining room stack (.value, .record usr)) (hm : m.Sound s stack)
    (hb : m.lookup usr = some b) : b = true ↔ s.Crosses .value (.record usr) := by
  by_cases hmem : usr ∈ stack
  · rw [hm.provisional usr hmem] at hb
    rw [← Option.some.inj hb]
    simpa using h.not_crosses hmem
  · exact hm.settled usr b hmem hb

/-! ## §3. The path of an examination. -/

/-- Whoever follows the USR goes on with the type. -/
inductive Enters (s : Scope) (usr : Usr) : TypeExpr → Prop where
  | typedef {d : Decl} {type : TypeExpr} (found : s.typedef usr = .ok (d, type)) :
      Enters s usr type
  | enum {d : Decl} {integerType : TypeExpr} {e : Decl} {es : List Decl}
      (found : s.enum usr = .ok (d, some integerType, e :: es)) : Enters s usr integerType

/-- The typedefs and enums of `path` are being followed, and `t` is met on the
way. -/
def Following (s : Scope) (path : List Usr) (t : TypeExpr) : Prop :=
  ∀ usr ∈ path, ∃ t', s.Enters usr t' ∧ ReflTransGen s.Inside t t'

variable {path : List Usr} {t t' : TypeExpr} {name : String} {use : Use}

/-- At the start nothing is followed. -/
theorem following_nil (t : TypeExpr) : s.Following [] t :=
  fun _ h => absurd h List.not_mem_nil

/-- What is inside a type is met on the same way. -/
theorem Following.inner (h : s.Following path t) (ht' : s.Inside t' t) :
    s.Following path t' := by
  intro usr husr
  obtain ⟨u, henters, hu⟩ := h usr husr
  exact ⟨u, henters, hu.head ht'⟩

/-- A typedef or enum that is entered joins the way. -/
theorem Following.enter (h : s.Following path t) (ht' : s.Inside t' t)
    (henters : s.Enters usr t') : s.Following (usr :: path) t' := by
  intro other hother
  rcases List.mem_cons.1 hother with rfl | hother
  · exact ⟨t', henters, .refl⟩
  · exact h.inner ht' other hother

/-- One USR does not lead to a typedef and an enum. -/
theorem not_typedef_and_enum {d d' : Decl} {type : TypeExpr} {integerType : Option TypeExpr}
    {enumerators : List Decl} (h : s.typedef usr = .ok (d, type))
    (h' : s.enum usr = .ok (d', integerType, enumerators)) : False := by
  obtain ⟨hfind, hkind⟩ := typedef_eq_ok_iff.1 h
  obtain ⟨hfind', _, hkind'⟩ := enum_eq_ok_iff.1 h'
  rw [hfind] at hfind'
  cases hfind'
  rw [hkind] at hkind'
  cases hkind'

/-- A typedef that is met again leads back to itself. -/
theorem Following.circularTypedef (h : s.Following path (.typedef name usr)) (hmem : usr ∈ path)
    {d : Decl} {type : TypeExpr} (found : s.typedef usr = .ok (d, type))
    (plain : Idiom.detect? d.name type = none) :
    s.Fails (use, .typedef name usr) (.circular usr) := by
  obtain ⟨t', henters, ht'⟩ := h usr hmem
  cases henters with
  | typedef found' =>
      rw [found] at found'
      cases found'
      exact .circularTypedef (.tail' ht' fun use => ⟨use, .typedef found plain⟩)
  | enum found' => exact (not_typedef_and_enum found found').elim

/-- An enum that is met again leads back to itself. -/
theorem Following.circularEnum (h : s.Following path (.enum usr)) (hmem : usr ∈ path) {d : Decl}
    {integerType : TypeExpr} {e : Decl} {es : List Decl}
    (found : s.enum usr = .ok (d, some integerType, e :: es)) :
    s.Fails (use, .enum usr) (.circular usr) := by
  obtain ⟨t', henters, ht'⟩ := h usr hmem
  cases henters with
  | typedef found' => exact (not_typedef_and_enum found' found).elim
  | enum found' =>
      rw [found] at found'
      cases found'
      exact .circularEnum (.tail' ht' fun _ => ⟨.value, .enum found⟩)

end Scope

/-! ## §4. Every verdict is just. -/

/-- An answer is right, a failure has its cause, and the memory stays sound. -/
def Verdict.IsJust (s : Scope) (stack : List Usr) (answer : Prop) (cause : Failure → Prop)
    (v : Verdict) : Prop :=
  v.2.Sound s stack ∧ match v.1 with
    | .ok b => b = true ↔ answer
    | .error e => cause e

/-- A just verdict stays just if answer and cause are said in another way. -/
theorem Verdict.IsJust.imp {s : Scope} {stack : List Usr} {answer answer' : Prop}
    {cause cause' : Failure → Prop} {v : Verdict} (h : v.IsJust s stack answer cause)
    (hanswer : answer ↔ answer') (hcause : ∀ e, cause e → cause' e) :
    v.IsJust s stack answer' cause' := by
  obtain ⟨result, m⟩ := v
  obtain ⟨hm, h⟩ := h
  cases result with
  | ok b => exact ⟨hm, Iff.trans h hanswer⟩
  | error e => exact ⟨hm, hcause e h⟩

/-- A just verdict that is an answer. -/
theorem Verdict.IsJust.exact {s : Scope} {stack : List Usr} {answer : Prop}
    {cause : Failure → Prop} {v : Verdict} (h : v.IsJust s stack answer cause) {b : Bool}
    {m : Memory} (hv : v = (.ok b, m)) : (b = true ↔ answer) ∧ m.Sound s stack := by
  subst hv
  exact ⟨h.2, h.1⟩

namespace Scope

variable {s : Scope} {room : Nat} {stack : List Usr} {x y : Use × TypeExpr} {usr : Usr}

/-- The verdict on the use of a type is just. -/
def Judges (s : Scope) (stack : List Usr) (x : Use × TypeExpr) (v : Verdict) : Prop :=
  v.IsJust s stack (s.Crosses x.1 x.2) (s.Blames x)

/-- A type that crosses exactly if the one it needs does gets its verdict. -/
theorem Judges.of_needed {v : Verdict} (h : s.Judges stack y v) (hy : s.NeededFor y x)
    (hiff : s.Crosses x.1 x.2 ↔ s.Crosses y.1 y.2) : s.Judges stack x v :=
  h.imp hiff.symm fun _ he => he.of_needed hy

/-- A no is just if the type does not cross. -/
theorem judges_no {m : Memory} (hm : m.Sound s stack) (h : ¬ s.Crosses x.1 x.2) :
    s.Judges stack x (.ok false, m) :=
  ⟨hm, by simpa using h⟩

/-- A yes is just if it does. -/
theorem judges_yes {m : Memory} (hm : m.Sound s stack) (h : s.Crosses x.1 x.2) :
    s.Judges stack x (.ok true, m) :=
  ⟨hm, by simpa using h⟩

/-- A failure is just if the type itself makes the examination fail. -/
theorem judges_failure {m : Memory} {e : Failure} (hm : m.Sound s stack) (h : s.Fails x e) :
    s.Judges stack x (.error e, m) :=
  ⟨hm, h.blames⟩

/-- The verdict on a type is just. -/
def FitsJustly (s : Scope) (room : Nat) (path : List Usr) (use : Use) (t : TypeExpr)
    (m : Memory) : Prop :=
  ∀ stack, s.Examining room stack (use, t) → s.Following path t → m.Sound s stack →
    s.Judges stack (use, t) (s.fits room path use t m)

/-- The verdict on a new record is just. -/
def ExaminesJustly (s : Scope) (room : Nat) (usr : Usr) (m : Memory) : Prop :=
  ∀ stack, s.Examining (room + 1) stack (.value, .record usr) → usr ∉ stack →
    m.Sound s stack → s.Judges stack (.value, .record usr) (s.examine room usr m)

/-- The members are plain fields of types that cross by value. -/
def FieldsCross (s : Scope) (fields : List Decl) : Prop :=
  (∀ f ∈ fields, f.IsPlainField) ∧ ∀ t ∈ fieldTypes fields, s.Crosses .value t

/-- The verdict on the members of a record is just. -/
def FieldsFitJustly (s : Scope) (room : Nat) (fields : List Decl) (m : Memory) : Prop :=
  ∀ stack, (∀ t ∈ fieldTypes fields, s.Examining room stack (.value, t)) →
    m.Sound s stack → (s.fieldsFit room fields m).IsJust s stack (s.FieldsCross fields)
      fun e => ∃ t ∈ fieldTypes fields, s.Blames (.value, t) e

/-- The type of a field stands before those of the others. -/
theorem fieldTypes_cons {f : Decl} {fs : List Decl} {type : TypeExpr} {width : Option UInt32}
    (h : f.kind = .field type width) : fieldTypes (f :: fs) = type :: fieldTypes fs := by
  simp [fieldTypes, h]

/-- Fields cross if the first does and the others do. -/
theorem fieldsCross_cons_iff {f : Decl} {fs : List Decl} {type : TypeExpr}
    (h : f.kind = .field type none) :
    s.FieldsCross (f :: fs) ↔ s.Crosses .value type ∧ s.FieldsCross fs := by
  have hf : f.IsPlainField := ⟨type, h⟩
  unfold FieldsCross
  rw [fieldTypes_cons h, List.forall_mem_cons, List.forall_mem_cons]
  simp only [hf, true_and]
  exact and_left_comm

/-- With a member that is no plain field they do not. -/
theorem not_fieldsCross_of_other {f : Decl} {fs : List Decl}
    (h : ∀ type, f.kind = .field type none → False) : ¬ s.FieldsCross (f :: fs) := by
  rintro ⟨hplain, _⟩
  obtain ⟨type, htype⟩ := hplain f List.mem_cons_self
  exact h type htype

/-- A union, or a record without fields, is refused at once. -/
theorem examinesJustly_of_refused {m : Memory} {d : Decl} {fields : List Decl}
    {tag : TagKind} (found : s.record usr = .ok (d, fields, tag))
    (hno : (decide (tag = .union) || fields.isEmpty) = true) :
    s.ExaminesJustly room usr m := by
  intro stack hex hnew hm
  unfold examine
  simp only [found, if_pos hno]
  have hc : ¬ s.Crosses .value (.record usr) := by
    rw [crosses_record_iff found]
    rintro ⟨tagged, full, _⟩
    simp only [Bool.or_eq_true, decide_eq_true_eq, List.isEmpty_iff] at hno
    exact hno.elim tagged full
  exact judges_no (hm.push.settle hnew (by simpa using hc)) hc

/-- The verdict on the members is that on the record. -/
theorem examinesJustly_of_fields {m : Memory} {d : Decl} {fields : List Decl}
    {tag : TagKind} (found : s.record usr = .ok (d, fields, tag))
    (hno : ¬ (decide (tag = .union) || fields.isEmpty) = true)
    (ih : s.FieldsFitJustly room fields ((usr, false) :: m)) :
    s.ExaminesJustly room usr m := by
  intro stack hex hnew hm
  have hjust := ih (usr :: stack) (fun t ht => hex.push found hnew ht) hm.push
  unfold examine
  simp only [found, if_neg hno]
  generalize s.fieldsFit room fields ((usr, false) :: m) = v at hjust
  obtain ⟨result, m'⟩ := v
  obtain ⟨hm', hjust⟩ := hjust
  cases result with
  | error e =>
      -- The provisional answer stays, and is right: the record needs what failed.
      obtain ⟨t, ht, hblames⟩ := hjust
      have hcause : s.Blames (.value, .record usr) e := hblames.of_needed (.record found ht)
      exact ⟨hm'.abandon hcause.not_crosses, hcause⟩
  | ok b =>
      have hiff : b = true ↔ s.Crosses .value (.record usr) := by
        rw [crosses_record_iff found]
        simp only [Bool.or_eq_true, decide_eq_true_eq, List.isEmpty_iff, not_or] at hno
        simp only [ne_eq, hno, not_false_eq_true, true_and]
        exact hjust
      exact ⟨hm'.settle hnew hiff, hiff⟩

/-- If the first field fits, the verdict on the others is that on all. -/
theorem fieldsFitJustly_of_fits {m m₁ : Memory} {f : Decl} {fs : List Decl} {type : TypeExpr}
    (hk : f.kind = .field type none) (hfit : s.fits room [] .value type m = (.ok true, m₁))
    (first : s.FitsJustly room [] .value type m) (others : s.FieldsFitJustly room fs m₁) :
    s.FieldsFitJustly room (f :: fs) m := by
  intro stack hex hm
  rw [fieldTypes_cons hk, List.forall_mem_cons] at hex
  have hv : s.fieldsFit room (f :: fs) m = s.fieldsFit room fs m₁ := by
    rw [fieldsFit]
    simp only [hk, hfit]
  have htype := first stack hex.1 (following_nil type) hm
  rw [hfit] at htype
  have hc : s.Crosses .value type := htype.2.1 rfl
  rw [hv]
  refine (others stack hex.2 htype.1).imp ?_ fun e he => ?_
  · rw [fieldsCross_cons_iff hk]
    simp only [hc, true_and]
  · obtain ⟨t, ht, hblames⟩ := he
    rw [fieldTypes_cons hk]
    exact ⟨t, List.mem_cons_of_mem type ht, hblames⟩

/-- If it does not, the verdict on it is that on all. -/
theorem fieldsFitJustly_of_misfit {m : Memory} {f : Decl} {fs : List Decl} {type : TypeExpr}
    (hk : f.kind = .field type none)
    (hbad : ∀ m₁, s.fits room [] .value type m = (.ok true, m₁) → False)
    (first : s.FitsJustly room [] .value type m) : s.FieldsFitJustly room (f :: fs) m := by
  intro stack hex hm
  rw [fieldTypes_cons hk, List.forall_mem_cons] at hex
  have hv : s.fieldsFit room (f :: fs) m = s.fits room [] .value type m := by
    rw [fieldsFit]
    grind
  have htype := first stack hex.1 (following_nil type) hm
  rw [hv]
  generalize s.fits room [] .value type m = v at htype hbad
  obtain ⟨result, m₁⟩ := v
  obtain ⟨hm₁, htype⟩ := htype
  cases result with
  | error e =>
      refine ⟨hm₁, type, ?_, htype⟩
      rw [fieldTypes_cons hk]
      exact List.mem_cons_self
  | ok b =>
      cases b with
      | true => exact (hbad m₁ rfl).elim
      | false =>
          refine ⟨hm₁, ?_⟩
          rw [fieldsCross_cons_iff hk]
          have hc : ¬ s.Crosses .value type := by simpa using htype
          simp only [hc, false_and]
          exact iff_of_false Bool.false_ne_true id

/-- **All verdicts are just**: by induction along the search, one case for each
way a type is examined. -/
theorem answers_justly (s : Scope) :
    (∀ room path use t m, s.FitsJustly room path use t m)
      ∧ (∀ room usr m, s.ExaminesJustly room usr m)
      ∧ ∀ room fields m, s.FieldsFitJustly room fields m := by
  refine Scope.fits.mutual_induct s s.FitsJustly s.ExaminesJustly s.FieldsFitJustly
    ?wrapped ?void ?primitive ?noTypedef ?idiom ?circular ?typedef ?selector ?pointer ?decayed
    ?object ?noRecord ?behind ?known ?noRoom ?record ?noEnum ?circularEnum ?enum ?emptyEnum
    ?array ?other ?noExamined ?unexamined ?examineFails ?examined ?noFields ?field ?badField
    ?otherMember
  case wrapped =>
    intro room path use m w inner ih stack hex hpath hm
    rw [fits]
    have hv := ih stack (hex.inner .wrapped) (hpath.inner fun use => ⟨use, .wrapped⟩) hm
    exact hv.of_needed .wrapped crosses_wrapped_iff
  case void =>
    intro room path use m name hv stack hex hpath hm
    rw [fits, if_pos hv]
    obtain ⟨rfl, rfl⟩ := hv
    exact judges_yes hm .void
  case primitive =>
    intro room path use m name hv stack hex hpath hm
    rw [fits, if_neg hv]
    have hiff := crosses_builtin_iff (s := s) hv
    unfold primitiveFits at hiff ⊢
    split
    · next e unknown => exact judges_failure hm (.primitive hv unknown)
    · next p known =>
      simp only [known, Except.ok.injEq] at hiff
      exact ⟨hm, hiff.symm⟩
  case noTypedef =>
    intro room path use m name usr e missing stack hex hpath hm
    have hv : s.fits room path use (.typedef name usr) m = (.error e, m) := by
      rw [fits]
      grind
    rw [hv]
    exact judges_failure hm (.typedef missing)
  case idiom =>
    intro room path use m name usr d type found hi stack hex hpath hm
    have hv : s.fits room path use (.typedef name usr) m = (.ok true, m) := by
      rw [fits]
      grind
    rw [hv]
    exact judges_yes hm (.idiom found hi)
  case circular =>
    intro room path use m name usr d type found hi hp stack hex hpath hm
    have plain : Idiom.detect? d.name type = none := by simpa using hi
    have hv : s.fits room path use (.typedef name usr) m = (.error (.circular usr), m) := by
      rw [fits]
      grind
    rw [hv]
    exact judges_failure hm (hpath.circularTypedef hp found plain)
  case typedef =>
    intro room path use m name usr d type found hi hp ih stack hex hpath hm
    have plain : Idiom.detect? d.name type = none := by simpa using hi
    have hv : s.fits room path use (.typedef name usr) m
        = s.fits room (usr :: path) use type m := by
      rw [fits]
      grind
    rw [hv]
    have hway : s.Following (usr :: path) type :=
      hpath.enter (fun use => ⟨use, .typedef found plain⟩) (.typedef found)
    have htype := ih stack (hex.inner (.typedef found plain)) hway hm
    exact htype.of_needed (.typedef found plain) (crosses_typedef_iff found plain)
  case selector =>
    intro room path use m pointee shape stack hex hpath hm
    rw [fits, if_pos shape]
    exact judges_yes hm (.selector shape)
  case pointer =>
    intro room path use m pointee shape ih stack hex hpath hm
    rw [fits, if_neg shape]
    have hv := ih stack (hex.inner (.pointer shape))
      (hpath.inner fun _ => ⟨.pointee, .pointer shape⟩) hm
    exact hv.of_needed (.pointer shape) (crosses_pointer_iff shape)
  case decayed =>
    intro room path use m pointee ih stack hex hpath hm
    rw [fits]
    have hv := ih stack (hex.inner .decayed) (hpath.inner fun _ => ⟨.pointee, .decayed⟩) hm
    exact hv.of_needed .decayed crosses_decayed_iff
  case object =>
    intro room path use m pointee stack hex hpath hm
    rw [fits]
    exact ⟨hm, crosses_objectPointer_iff.symm⟩
  case noRecord =>
    intro room path m usr e missing stack hex hpath hm
    unfold fits
    simp only [missing, if_true]
    exact judges_failure hm (.record missing)
  case behind =>
    intro room path m usr d fields tag found stack hex hpath hm
    unfold fits
    simp only [found, if_true]
    have hiff := crosses_pointee_record_iff found
    exact ⟨hm, by simpa using hiff.symm⟩
  case known =>
    intro room path use m usr huse known hk stack hex hpath hm
    unfold fits
    simp only [if_neg huse, hk]
    cases use with
    | pointee => exact absurd rfl huse
    | value => exact ⟨hm, hex.known_iff hm hk⟩
  case noRoom =>
    -- This answer would be wrong, but it is never reached.
    intro path use m usr huse hk stack hex
    exact hex.room_ne_zero.elim
  case record =>
    intro path use m usr huse hk room ih stack hex hpath hm
    unfold fits
    simp only [if_neg huse, hk]
    cases use with
    | pointee => exact absurd rfl huse
    | value =>
        -- A record of the stack has a provisional answer, so this one is new.
        have hnew : usr ∉ stack := by
          intro hmem
          rw [hm.provisional usr hmem] at hk
          cases hk
        exact ih stack hex hnew hm
  case noEnum =>
    intro room path use m usr e missing stack hex hpath hm
    have hv : s.fits room path use (.enum usr) m = (.error e, m) := by
      rw [fits]
      grind
    rw [hv]
    exact judges_failure hm (.enum missing)
  case circularEnum =>
    intro room path use m usr d integerType e es found hp stack hex hpath hm
    have hv : s.fits room path use (.enum usr) m = (.error (.circular usr), m) := by
      rw [fits]
      grind
    rw [hv]
    exact judges_failure hm (hpath.circularEnum hp found)
  case enum =>
    intro room path use m usr d integerType e es found hp ih stack hex hpath hm
    have hv : s.fits room path use (.enum usr) m
        = s.fits room (usr :: path) .value integerType m := by
      rw [fits]
      grind
    rw [hv]
    have hway : s.Following (usr :: path) integerType :=
      hpath.enter (fun _ => ⟨.value, .enum found⟩) (.enum found)
    have htype := ih stack (hex.inner (.enum found)) hway hm
    exact htype.of_needed (.enum found) (crosses_enum_iff found)
  case emptyEnum =>
    intro room path use m usr a hempty found stack hex hpath hm
    have hv : s.fits room path use (.enum usr) m = (.ok false, m) := by
      rw [fits]
      grind
    rw [hv]
    refine judges_no hm fun hc => ?_
    -- An enum crosses only with an integer type and an enumerator.
    cases hc with
    | enum found' _ =>
        rw [found] at found'
        injection found' with found'
        exact hempty _ _ _ _ found'
  case array =>
    intro room path use m element size ih stack hex hpath hm
    rw [fits]
    have hv := ih stack (hex.inner .array) (hpath.inner fun _ => ⟨.value, .array⟩) hm
    exact hv.of_needed .array crosses_array_iff
  case other =>
    intro room path use t m h1 h2 h3 h4 h5 h6 h7 h8 h9 stack hex hpath hm
    have hv : s.fits room path use t m = (.ok false, m) := by
      rw [fits] <;> simp_all
    rw [hv]
    refine judges_no hm fun hc => ?_
    cases hc <;> simp_all
  case noExamined =>
    intro room usr m e missing stack hex hnew hm
    unfold examine
    simp only [missing]
    have hfails : s.Fails (.value, .record usr) e := .record missing
    exact judges_failure (hm.push.abandon hfails.not_crosses) hfails
  case unexamined =>
    intro room usr m d fields tag found hno
    exact examinesJustly_of_refused found hno
  case examineFails =>
    intro room usr m m₁ d fields tag found hno _ _ _ ih
    exact examinesJustly_of_fields found hno ih
  case examined =>
    intro room usr m m₁ d fields tag found hno _ _ _ ih
    exact examinesJustly_of_fields found hno ih
  case noFields =>
    intro room m stack hex hm
    rw [fieldsFit]
    exact ⟨hm, by simp [FieldsCross, fieldTypes]⟩
  case field =>
    intro room m f fs type hk m₁ hfit ihf ihs
    exact fieldsFitJustly_of_fits hk hfit ihf ihs
  case badField =>
    intro room m f fs type hk hbad ihf
    exact fieldsFitJustly_of_misfit hk hbad ihf
  case otherMember =>
    intro room m f fs hk stack hex hm
    have hv : s.fieldsFit room (f :: fs) m = (.ok false, m) := by
      rw [fieldsFit]
      grind
    rw [hv]
    exact ⟨hm, iff_of_false Bool.false_ne_true (not_fieldsCross_of_other hk)⟩

/-! ## §5. Questions from outside. -/

variable {m : Memory} {t : TypeExpr}

/-- **A value is judged justly by a memory that is sound.** -/
theorem typeFits_just (hm : m.Sound s []) : s.Judges [] (.value, t) (s.typeFits t m) :=
  (answers_justly s).1 _ _ _ _ _ _ (examining_start s _) (following_nil t) hm

/-- **So is what a pointer leads to.** -/
theorem pointeeFits_just (hm : m.Sound s []) : s.Judges [] (.pointee, t) (s.pointeeFits t m) :=
  (answers_justly s).1 _ _ _ _ _ _ (examining_start s _) (following_nil t) hm

/-- A typedef is written if its type crosses as a value or behind a pointer. -/
theorem typedefFits_just {d : Decl} {type : TypeExpr} (found : s.typedef usr = .ok (d, type))
    (hm : m.Sound s []) :
    (s.typedefFits usr m).IsJust s [] (s.Crosses .value type ∨ s.Crosses .pointee type)
      fun e => ∃ use, s.Blames (use, type) e := by
  have hvalue := typeFits_just (t := type) hm
  unfold typedefFits
  simp only [found]
  generalize s.typeFits type m = v at hvalue
  obtain ⟨result, m₁⟩ := v
  obtain ⟨hm₁, hvalue⟩ := hvalue
  cases result with
  | error e => exact ⟨hm₁, .value, hvalue⟩
  | ok b =>
      cases b with
      | true => exact ⟨hm₁, iff_of_true rfl (.inl (hvalue.1 rfl))⟩
      | false =>
          -- Only a no about values leads to the question about pointers.
          have hc : ¬ s.Crosses .value type := by simpa using hvalue
          refine (pointeeFits_just hm₁).imp ?_ fun e he => ⟨.pointee, he⟩
          simp only [hc, false_or]

/-- Types in a row fit exactly if each crosses. -/
theorem typesFit_just (ts : List TypeExpr) (hm : m.Sound s []) :
    (s.typesFit ts m).IsJust s [] (∀ t ∈ ts, s.Crosses .value t)
      fun e => ∃ t ∈ ts, s.Blames (.value, t) e := by
  induction ts generalizing m with
  | nil => exact ⟨hm, iff_of_true rfl (by simp)⟩
  | cons t ts ih =>
      have ht := typeFits_just (t := t) hm
      rw [typesFit]
      generalize s.typeFits t m = v at ht
      obtain ⟨result, m₁⟩ := v
      obtain ⟨hm₁, ht⟩ := ht
      cases result with
      | error e => exact ⟨hm₁, t, List.mem_cons_self, ht⟩
      | ok b =>
          cases b with
          | true =>
              have hc : s.Crosses .value t := ht.1 rfl
              refine (ih hm₁).imp ?_ fun e he => ?_
              · rw [List.forall_mem_cons]
                simp only [hc, true_and]
              · obtain ⟨t', ht', hblames⟩ := he
                exact ⟨t', List.mem_cons_of_mem t ht', hblames⟩
          | false =>
              have hc : ¬ s.Crosses .value t := by simpa using ht
              exact ⟨hm₁, iff_of_false Bool.false_ne_true fun h => hc (h t List.mem_cons_self)⟩

/-- **A method is bound exactly if its signature crosses.** -/
theorem methodFits_just (method : Method) (hm : m.Sound s []) :
    (s.methodFits method m).IsJust s [] (s.Binds method)
      fun e => ∃ t, method.Carries t ∧ s.Blames (.value, t) e := by
  unfold methodFits
  split
  · next hbad =>
    -- Refused for its arguments, whatever their types are.
    refine ⟨hm, iff_of_false Bool.false_ne_true ?_⟩
    simp only [Bool.or_eq_true, decide_eq_true_eq] at hbad
    intro hbinds
    rcases hbad with hbad | hbad
    · rw [hbinds.fixed] at hbad
      cases hbad
    · exact absurd hbinds.few (Nat.not_le.2 hbad)
  · next hgood =>
    simp only [Bool.or_eq_true, decide_eq_true_eq, not_or, Bool.not_eq_true] at hgood
    refine (typesFit_just method.crossing hm).imp ?_ ?_
    · constructor
      · exact fun hcross => ⟨hgood.1, Nat.not_lt.1 hgood.2, fun t ht =>
          hcross t (Method.mem_crossing_iff.2 ht)⟩
      · exact fun hbinds t ht => hbinds.crosses t (Method.mem_crossing_iff.1 ht)
    · rintro e ⟨t, ht, hblames⟩
      exact ⟨t, Method.mem_crossing_iff.1 ht, hblames⟩

end Scope

end ObjcBindings
