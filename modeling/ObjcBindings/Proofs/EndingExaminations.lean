/-
  ObjcBindings.Proofs.EndingExaminations
  ────────────────────────────────
  **EVERY EXAMINATION COMES TO AN END.**

  To answer a question about a type or record, others are asked first, and the
  verdict on each decides how to go on.  Nothing in this bounds how deep the
  questions are nested: there is no room that could run out, and no path that
  tells when a typedef comes up again.

      Exam       — what is done to answer one question
      Ends       — the questions that are asked have verdicts, and so it has one
      Asks       — a question is asked in the course of it

  Records may hold themselves and each other in every way.  Only typedefs and
  enums must not be made from themselves:

    • `fits_found` — then the running answers, which stop at a limit of room
      or path, are found without one,
    • `wellFounded_asks` — questions that have verdicts are not nested for ever,
    • `examinations_end` — so every question has one verdict, whatever is
      remembered, and it is the running one.
-/
import ObjcBindings.Proofs.AcyclicReferences
import ObjcBindings.Proofs.QuestionHistory
import ObjcBindings.Proofs.ScopeAgreement
import Mathlib

namespace ObjcBindings

/-! ## §1. Examinations. -/

/-- The question whether the type can be used so. -/
def Use.question : Use → TypeExpr → Question
  | .value, t => .value t
  | .pointee, t => .pointee t

/-- What is done to answer a question. -/
inductive Exam where
  /-- The verdict is found. -/
  | done (v : Verdict)
  /-- Another question is asked, and its verdict decides how to go on. -/
  | ask (q : Question) (m : Memory) (next : Verdict → Exam)

namespace Exam

/-- The verdict is that of another question. -/
def pass (q : Question) (m : Memory) : Exam :=
  .ask q m .done

/-- Values of all the types cross: they are asked about in turn, up to the first
that does not cross. -/
def every : List TypeExpr → Memory → Exam
  | [], m => .done (.ok true, m)
  | t :: ts, m => .ask (.value t) m fun
      | (.ok true, m') => every ts m'
      | verdict => .done verdict

/-- All members of the record `usr` are plain fields of types that cross by
value.  The answer is remembered, a failure is not. -/
def members (usr : Usr) : List Decl → Memory → Exam
  | [], m => .done (.ok true, (usr, true) :: m)
  | f :: fs, m =>
      match f.kind with
      | .field type none => .ask (.value type) m fun
          | (.ok true, m') => members usr fs m'
          | (.ok false, m') => .done (.ok false, (usr, false) :: m')
          | failure => .done failure
      | _ => .done (.ok false, (usr, false) :: m)

end Exam

/-! ## §2. What each question asks. -/

namespace Scope

/-- Can values of the type cross? -/
def examValue (s : Scope) (t : TypeExpr) (m : Memory) : Exam :=
  match t.stripWrappers with
  | .builtin name => .done (primitiveFits name, m)
  | .typedef _ usr =>
      match s.typedef usr with
      | .error e => .done (.error e, m)
      | .ok (d, type) =>
          if (Idiom.detect? d.name type).isSome then .done (.ok true, m)
          else .pass (.value type) m
  | .pointer pointee =>
      if (TypeExpr.pointer pointee).isSelShape then .done (.ok true, m)
      else .pass (.pointee pointee) m
  | .decayed pointee => .pass (.pointee pointee) m
  | .objectPointer pointee => .done (.ok pointee.stripWrappers.isObject, m)
  | .record usr => .pass (.record usr) m
  | .enum usr =>
      match s.enum usr with
      | .error e => .done (.error e, m)
      | .ok (_, some integerType, _ :: _) => .pass (.value integerType) m
      | .ok _ => .done (.ok false, m)
  | .constantArray element _ => .pass (.value element) m
  | _ => .done (.ok false, m)

/-- Can pointers to the type cross?  Where nothing else is said, they can if
values of the same type can. -/
def examPointee (s : Scope) (t : TypeExpr) (m : Memory) : Exam :=
  match t.stripWrappers with
  | .builtin name => if name = "Void" then .done (.ok true, m) else .pass (.value (.builtin name)) m
  | .record usr =>
      match s.record usr with
      | .error e => .done (.error e, m)
      | .ok (_, _, tag) => .done (.ok (tag ≠ .union), m)
  | .typedef name usr =>
      match s.typedef usr with
      | .error e => .done (.error e, m)
      | .ok (d, type) =>
          if (Idiom.detect? d.name type).isSome then .pass (.value (.typedef name usr)) m
          else .pass (.pointee type) m
  | other => .pass (.value other) m

/-- Does the record have a layout?  While its members are examined the answer is
provisionally no. -/
def examRecord (s : Scope) (usr : Usr) (m : Memory) : Exam :=
  match m.lookup usr with
  | some known => .done (.ok known, m)
  | none =>
      let m := (usr, false) :: m
      match s.record usr with
      | .error e => .done (.error e, m)
      | .ok (_, fields, tag) =>
          if tag = .union || fields.isEmpty then .done (.ok false, (usr, false) :: m)
          else .members usr fields m

/-- Is the typedef written?  Its type crosses as a value, or else behind a
pointer. -/
def examTypedef (s : Scope) (usr : Usr) (m : Memory) : Exam :=
  match s.typedef usr with
  | .error e => .done (.error e, m)
  | .ok (_, type) => .ask (.value type) m fun
      | (.ok false, m') => .pass (.pointee type) m'
      | verdict => .done verdict

/-- What is done to answer a question with the memory `m`. -/
def exam (s : Scope) : Question → Memory → Exam
  | .value t, m => s.examValue t m
  | .pointee t, m => s.examPointee t m
  | .record usr, m => s.examRecord usr m
  | .typedef usr, m => s.examTypedef usr m
  | .method method, m =>
      if method.isVariadic || method.params.length > maxArguments then .done (.ok false, m)
      else .every method.crossing m

/-! ## §3. Examinations that end. -/

/-- The examination ends with a verdict: so does every question that it asks. -/
inductive Ends (s : Scope) : Exam → Verdict → Prop where
  | done {v : Verdict} : Ends s (.done v) v
  | ask {q : Question} {m : Memory} {next : Verdict → Exam} {v v' : Verdict}
      (asked : Ends s (s.exam q m) v) (others : Ends s (next v) v') : Ends s (.ask q m next) v'

/-- In the course of the examination the question `c.1` is asked with the memory
`c.2`.  The questions before it have verdicts. -/
inductive Asks (s : Scope) : Exam → Question × Memory → Prop where
  | now {q : Question} {m : Memory} {next : Verdict → Exam} : Asks s (.ask q m next) (q, m)
  | later {q : Question} {m : Memory} {next : Verdict → Exam} {v : Verdict}
      {c : Question × Memory} (asked : Ends s (s.exam q m) v) (others : Asks s (next v) c) :
      Asks s (.ask q m next) c

variable {s : Scope} {exam : Exam} {q : Question} {m m' : Memory} {v v' : Verdict}

/-- **An examination has at most one verdict.** -/
theorem Ends.unique (h : s.Ends exam v) (h' : s.Ends exam v') : v = v' := by
  induction h generalizing v' with
  | done =>
      cases h'
      rfl
  | ask _ _ ihAsked ihOthers =>
      cases h' with
      | ask asked others =>
          obtain rfl := ihAsked asked
          exact ihOthers others

/-- A question that is passed on ends as the other does. -/
theorem ends_pass (h : s.Ends (s.exam q m) v) : s.Ends (.pass q m) v :=
  .ask h .done

/-- Inside an examination that ends, no chain of questions goes on for ever. -/
theorem Ends.acc (h : s.Ends exam v) {c : Question × Memory} (hc : s.Asks exam c) :
    Acc (fun c c' => s.Asks (s.exam c'.1 c'.2) c) c := by
  induction h generalizing c with
  | done => cases hc
  | ask asked _ ihAsked ihOthers =>
      cases hc with
      | now => exact ⟨_, fun _ => ihAsked⟩
      | later asked' others =>
          obtain rfl := asked.unique asked'
          exact ihOthers others

/-- **Questions that have verdicts are not nested for ever.** -/
theorem wellFounded_asks (h : ∀ q m, ∃ v, s.Ends (s.exam q m) v) :
    WellFounded fun c c' : Question × Memory => s.Asks (s.exam c'.1 c'.2) c := by
  refine ⟨fun ⟨q, m⟩ => ⟨_, fun c hc => ?_⟩⟩
  obtain ⟨v, hv⟩ := h q m
  exact hv.acc hc

/-! ## §4. The running answers. -/

/-- The verdict is found without a limit, and nothing is forgotten on the way. -/
structure Finds (s : Scope) (exam : Exam) (m : Memory) (v : Verdict) : Prop where
  ends : s.Ends exam v
  grows : m.keys ⊆ v.2.keys

/-- An examination that is over finds its answer. -/
theorem finds_done (answer : Except Failure Bool) (m : Memory) :
    s.Finds (.done (answer, m)) m (answer, m) :=
  ⟨.done, fun _ h => h⟩

/-- A question that is passed on finds what the other does. -/
theorem Finds.pass (h : s.Finds (s.exam q m) m' v) : s.Finds (.pass q m) m' v :=
  ⟨ends_pass h.ends, h.grows⟩

/-- What passes a question on finds its verdict. -/
theorem Finds.of_pass (h : s.Finds (.pass q m') m v) : s.Finds (s.exam q m') m v := by
  obtain ⟨ends, grows⟩ := h
  cases ends with
  | ask asked others =>
      cases others
      exact ⟨asked, grows⟩

/-- What is found for more remembered is found for less. -/
theorem Finds.mono (h : s.Finds exam m' v) (hle : m.keys ⊆ m'.keys) : s.Finds exam m v :=
  ⟨h.ends, fun _ hmem => h.grows (hle hmem)⟩

variable {t : TypeExpr} {usr : Usr} {room : Nat} {path : List Usr}

/-- Where pointers to a type are no case of their own, the question about them is
the one about values. -/
theorem Finds.of_value (h : s.Finds (s.exam (.value t) m) m v)
    (hpointee : s.exam (.pointee t) m = .pass (.value t) m) (use : Use) :
    s.Finds (s.exam (use.question t) m) m v := by
  cases use with
  | value => exact h
  | pointee =>
      show s.Finds (s.exam (.pointee t) m) m v
      rw [hpointee]
      exact h.pass

/-- With this much room, the running verdicts on types are found without a
limit. -/
def FitsFound (s : Scope) (room : Nat) : Prop :=
  ∀ path use t m, s.Following path t → s.HasRoom room m →
    s.Finds (s.exam (use.question t) m) m (s.fits room path use t m)

/-- The verdict on the members of a record becomes that on the record. -/
def settle (usr : Usr) : Verdict → Verdict
  | (.ok answer, m) => (.ok answer, (usr, answer) :: m)
  | failure => failure

/-- The members of a record are found to fit as the answers say. -/
theorem FitsFound.members (h : s.FitsFound room) (usr : Usr) :
    ∀ (fields : List Decl) {m : Memory}, s.HasRoom room m →
      s.Finds (.members usr fields m) m (settle usr (s.fieldsFit room fields m))
  | [], m, _ => by
      rw [fieldsFit]
      exact ⟨.done, fun _ hmem => List.mem_cons_of_mem _ hmem⟩
  | f :: fs, m, hroom => by
      by_cases hk : ∃ type, f.kind = .field type none
      · obtain ⟨type, hk⟩ := hk
        rw [Exam.members, fieldsFit]
        simp only [hk]
        -- The member starts a path of its own: the record is not on it.
        obtain ⟨ends, grows⟩ := h [] .value type m (following_nil type) hroom
        generalize s.fits room [] .value type m = v at ends grows ⊢
        obtain ⟨answer, m₁⟩ := v
        cases answer with
        | error e => exact ⟨.ask ends .done, grows⟩
        | ok b =>
            cases b with
            | true =>
                -- The memory has only grown, so there is room for the others.
                obtain ⟨endsRest, growsRest⟩ := h.members usr fs (hroom.mono grows)
                exact ⟨.ask ends endsRest, fun _ hmem => growsRest (grows hmem)⟩
            | false =>
                exact ⟨.ask ends .done, fun _ hmem => List.mem_cons_of_mem _ (grows hmem)⟩
      · -- Another member is refused without a question.
        have hexam : Exam.members usr (f :: fs) m = .done (.ok false, (usr, false) :: m) := by
          rw [Exam.members]
          grind
        have hfits : s.fieldsFit room (f :: fs) m = (.ok false, m) := by
          rw [fieldsFit]
          grind
        rw [hexam, hfits]
        exact (finds_done _ _).mono fun _ hmem => List.mem_cons_of_mem _ hmem

/-- A record that is new to the memory is examined. -/
theorem FitsFound.examine (h : s.FitsFound room) (hnew : m.lookup usr = none)
    (hroom : s.HasRoom (room + 1) m) :
    s.Finds (s.exam (.record usr) m) m (s.examine room usr m) := by
  have hpush : m.keys ⊆ Memory.keys ((usr, false) :: m) := fun _ hmem => List.mem_cons_of_mem _ hmem
  show s.Finds (s.examRecord usr m) m (s.examine room usr m)
  unfold examRecord Scope.examine
  simp only [hnew]
  cases hd : s.record usr with
  | error e => exact (finds_done _ _).mono hpush
  | ok r =>
      obtain ⟨d, fields, tag⟩ := r
      dsimp only
      split
      · exact (finds_done _ _).mono fun _ hmem => List.mem_cons_of_mem _ (hpush hmem)
      · -- The record is in the table, so its place in the memory is counted.
        have hroom' := hroom.push (mem_usrs_of_record hd) (Memory.lookup_eq_none_iff.1 hnew) false
        have hmembers := (h.members usr fields hroom').mono hpush
        generalize s.fieldsFit room fields ((usr, false) :: m) = v at hmembers
        obtain ⟨_ | _, m₁⟩ := v
        · exact hmembers
        · exact hmembers

/-- A reference that goes on with a type is on no path that leads to it. -/
theorem Following.not_mem (hpath : s.Following path t) (hacyclic : s.table.Acyclic)
    (ht : t.inner = []) {type : TypeExpr} (hinside : s.Inside type t)
    (hunique : ∀ type', s.Enters usr type' → type' = type) : usr ∉ path := by
  intro hmem
  obtain ⟨type', henters, hway⟩ := hpath usr hmem
  obtain rfl := hunique type' henters
  exact not_transGen_inside hacyclic ht (.tail' hway hinside)

/-- Without circles a typedef is not met again. -/
theorem Following.typedef_not_mem {name : String} {d : Decl} {type : TypeExpr}
    (hpath : s.Following path (.typedef name usr)) (hacyclic : s.table.Acyclic)
    (found : s.typedef usr = .ok (d, type)) (plain : Idiom.detect? d.name type = none) :
    usr ∉ path := by
  refine hpath.not_mem hacyclic rfl (fun use => ⟨use, .typedef found plain⟩) fun type' henters => ?_
  cases henters with
  | typedef found' =>
      rw [found] at found'
      cases found'
      rfl
  | enum found' => exact (not_typedef_and_enum found found').elim

theorem Following.enum_not_mem {d e : Decl} {integerType : TypeExpr} {es : List Decl}
    (hpath : s.Following path (.enum usr)) (hacyclic : s.table.Acyclic)
    (found : s.enum usr = .ok (d, some integerType, e :: es)) : usr ∉ path := by
  refine hpath.not_mem hacyclic rfl (fun _ => ⟨.value, .enum found⟩) fun type' henters => ?_
  cases henters with
  | typedef found' => exact (not_typedef_and_enum found' found).elim
  | enum found' =>
      rw [found] at found'
      cases found'
      rfl

/-- The examination of a typedef, one step further. -/
theorem exam_typedef (s : Scope) (use : Use) (name : String) (usr : Usr) (m : Memory) :
    s.exam (use.question (.typedef name usr)) m =
      match s.typedef usr with
      | .error e => .done (.error e, m)
      | .ok (d, type) =>
          if (Idiom.detect? d.name type).isSome then
            match use with
            | .value => .done (.ok true, m)
            | .pointee => .pass (.value (.typedef name usr)) m
          else .pass (use.question type) m := by
  cases use <;> rfl

/-- The examination of a record behind a pointer. -/
theorem exam_pointee_record (s : Scope) (usr : Usr) (m : Memory) :
    s.exam (.pointee (.record usr)) m =
      match s.record usr with
      | .error e => .done (.error e, m)
      | .ok (_, _, tag) => .done (.ok (tag ≠ .union), m) := rfl

/-- The examination of an enum, one step further. -/
theorem exam_enum (s : Scope) (usr : Usr) (m : Memory) :
    s.exam (.value (.enum usr)) m =
      match s.enum usr with
      | .error e => .done (.error e, m)
      | .ok (_, some integerType, _ :: _) => .pass (.value integerType) m
      | .ok _ => .done (.ok false, m) := rfl

/-- Behind a pointer, an idiom is left to the question about values. -/
theorem finds_idiom {name : String} {d : Decl} {type : TypeExpr} (use : Use)
    (found : s.typedef usr = .ok (d, type)) (isIdiom : (Idiom.detect? d.name type).isSome = true) :
    s.Finds (match use with
      | .value => .done (.ok true, m)
      | .pointee => .pass (.value (.typedef name usr)) m) m (.ok true, m) := by
  cases use with
  | value => exact finds_done _ _
  | pointee =>
      refine Finds.pass ?_
      have hvalue := exam_typedef s .value name usr m
      simp only [found, isIdiom, if_true] at hvalue
      exact hvalue ▸ finds_done _ _

/-- Verdicts on a typedef are found if those on its type are. -/
theorem finds_typedef {name : String} (hacyclic : s.table.Acyclic) (use : Use)
    (hpath : s.Following path (.typedef name usr))
    (enters : ∀ type, s.Enters usr type → usr ∉ path → s.Following (usr :: path) type →
      s.Finds (s.exam (use.question type) m) m (s.fits room (usr :: path) use type m)) :
    s.Finds (s.exam (use.question (.typedef name usr)) m) m
      (s.fits room path use (.typedef name usr) m) := by
  rw [fits_typedef, exam_typedef]
  cases hd : s.typedef usr with
  | error e => exact finds_done _ _
  | ok r =>
      obtain ⟨d, type⟩ := r
      dsimp only
      by_cases hi : (Idiom.detect? d.name type).isSome = true
      · rw [if_pos hi, if_pos hi]
        exact finds_idiom use hd hi
      · have plain : Idiom.detect? d.name type = none := by simpa using hi
        have hnew := hpath.typedef_not_mem hacyclic hd plain
        rw [if_neg hi, if_neg hi, if_neg hnew]
        exact (enters type (.typedef hd) hnew
          (hpath.enter (fun use => ⟨use, .typedef hd plain⟩) (.typedef hd))).pass

/-- Verdicts on an enum are found if those on its integer type are. -/
theorem finds_enum (hacyclic : s.table.Acyclic) (use : Use) (hpath : s.Following path (.enum usr))
    (enters : ∀ type, s.Enters usr type → usr ∉ path → s.Following (usr :: path) type →
      s.Finds (s.exam (.value type) m) m (s.fits room (usr :: path) .value type m)) :
    s.Finds (s.exam (use.question (.enum usr)) m) m (s.fits room path use (.enum usr) m) := by
  rw [fits_enum]
  refine Finds.of_value ?_ rfl use
  rw [exam_enum]
  cases hd : s.enum usr with
  | error e => exact finds_done _ _
  | ok r =>
      obtain ⟨d, _ | integerType, _ | ⟨e, es⟩⟩ := r
      · exact finds_done _ _
      · exact finds_done _ _
      · exact finds_done _ _
      · have hnew := hpath.enum_not_mem hacyclic hd
        dsimp only
        rw [if_neg hnew]
        exact (enters integerType (.enum hd) hnew
          (hpath.enter (fun _ => ⟨.value, .enum hd⟩) (.enum hd))).pass

/-- A record by value is remembered or examined; behind a pointer its tag
decides. -/
theorem FitsFound.record (h : s.FitsFound room) (use : Use) (hroom : s.HasRoom (room + 1) m) :
    s.Finds (s.exam (use.question (.record usr)) m) m
      (s.fits (room + 1) path use (.record usr) m) := by
  rw [fits_record]
  cases use with
  | pointee =>
      rw [if_pos rfl]
      show s.Finds (s.exam (.pointee (.record usr)) m) m _
      rw [exam_pointee_record]
      cases hd : s.record usr with
      | error e => exact finds_done _ _
      | ok r => exact finds_done _ _
  | value =>
      rw [if_neg (by decide)]
      refine Finds.pass ?_
      cases hknown : m.lookup usr with
      | none => exact h.examine hknown hroom
      | some known =>
          show s.Finds (s.examRecord usr m) m _
          rw [examRecord, hknown]
          exact finds_done _ _

/-- **Running verdicts on types are found without a limit.**  By induction on the
room, and along types in between. -/
theorem fits_found (hacyclic : s.table.Acyclic) : ∀ room, s.FitsFound room
  | 0 => fun _ _ _ _ _ hroom => absurd hroom (Nat.not_lt_zero _)
  | room + 1 => by
      intro path use t m hpath hroom
      -- Only records change the memory, so it stays fixed along types.
      refine type_induction s (motive := fun path t => ∀ use, s.Following path t →
        s.Finds (s.exam (use.question t) m) m (s.fits (room + 1) path use t m)) ?_ path t use hpath
      intro path t inside enters use hpath
      cases t with
      | wrapped w inner =>
          have hinner :=
            inside inner List.mem_cons_self use (hpath.inner fun use => ⟨use, .wrapped⟩)
          rw [fits]
          cases use with
          | value => exact hinner
          | pointee => exact hinner
      | builtin name =>
          rw [fits]
          cases use with
          | value => exact finds_done _ _
          | pointee =>
              show s.Finds (if name = "Void" then _ else _) m _
              by_cases hvoid : name = "Void"
              · rw [if_pos hvoid, if_pos ⟨rfl, hvoid⟩]
                exact finds_done _ _
              · rw [if_neg hvoid, if_neg fun h => hvoid h.2]
                exact (finds_done _ _).pass
      | typedef name usr =>
          exact finds_typedef hacyclic use hpath fun type henters hnew hnext =>
            enters usr type henters hnew use hnext
      | pointer pointee =>
          rw [fits]
          refine Finds.of_value ?_ rfl use
          show s.Finds (if (TypeExpr.pointer pointee).isSelShape then _ else _) m _
          by_cases shape : (TypeExpr.pointer pointee).isSelShape = true
          · rw [if_pos shape, if_pos shape]
            exact finds_done _ _
          · rw [if_neg shape, if_neg shape]
            exact (inside pointee List.mem_cons_self .pointee
              (hpath.inner fun _ => ⟨.pointee, .pointer shape⟩)).pass
      | decayed pointee =>
          rw [fits]
          refine Finds.of_value ?_ rfl use
          exact (inside pointee List.mem_cons_self .pointee
            (hpath.inner fun _ => ⟨.pointee, .decayed⟩)).pass
      | objectPointer pointee =>
          rw [fits]
          exact Finds.of_value (finds_done _ _) rfl use
      | record usr => exact (fits_found hacyclic room).record use hroom
      | enum usr =>
          exact finds_enum hacyclic use hpath fun type henters hnew hnext =>
            enters usr type henters hnew .value hnext
      | constantArray element size =>
          rw [fits]
          refine Finds.of_value ?_ rfl use
          exact (inside element List.mem_cons_self .value
            (hpath.inner fun _ => ⟨.value, .array⟩)).pass
      | _ =>
          simp only [fits]
          exact Finds.of_value (finds_done _ _) rfl use

/-! ## §5. All questions. -/

/-- **Without circles the examination of a value ends with its answer.** -/
theorem typeFits_found (hacyclic : s.table.Acyclic) (t : TypeExpr) (m : Memory) :
    s.Finds (s.exam (.value t) m) m (s.typeFits t m) :=
  fits_found hacyclic s.room [] .value t m (following_nil t) (s.hasRoom_room m)

theorem pointeeFits_found (hacyclic : s.table.Acyclic) (t : TypeExpr) (m : Memory) :
    s.Finds (s.exam (.pointee t) m) m (s.pointeeFits t m) :=
  fits_found hacyclic s.room [] .pointee t m (following_nil t) (s.hasRoom_room m)

/-- **Without circles the examination of a typedef ends with its answer.** -/
theorem typedefFits_found (hacyclic : s.table.Acyclic) (usr : Usr) (m : Memory) :
    s.Finds (s.exam (.typedef usr) m) m (s.typedefFits usr m) := by
  show s.Finds (s.examTypedef usr m) m (s.typedefFits usr m)
  unfold examTypedef typedefFits
  cases s.typedef usr with
  | error e => exact finds_done _ _
  | ok r =>
      obtain ⟨ends, grows⟩ := typeFits_found hacyclic r.2 m
      dsimp only
      generalize s.typeFits r.2 m = v at ends grows ⊢
      obtain ⟨_ | (_ | _), m₁⟩ := v
      · exact ⟨.ask ends .done, grows⟩
      · -- Only a no about values leads to the question about pointers.
        have hpointee := (pointeeFits_found hacyclic r.2 m₁).pass.mono grows
        exact ⟨.ask ends hpointee.ends, hpointee.grows⟩
      · exact ⟨.ask ends .done, grows⟩

theorem typesFit_found (hacyclic : s.table.Acyclic) :
    ∀ (ts : List TypeExpr) (m : Memory), s.Finds (.every ts m) m (s.typesFit ts m)
  | [], m => finds_done _ _
  | t :: ts, m => by
      obtain ⟨ends, grows⟩ := typeFits_found hacyclic t m
      rw [Exam.every, typesFit]
      generalize s.typeFits t m = v at ends grows ⊢
      obtain ⟨_ | (_ | _), m₁⟩ := v
      · exact ⟨.ask ends .done, grows⟩
      · exact ⟨.ask ends .done, grows⟩
      · have hrest := (typesFit_found hacyclic ts m₁).mono grows
        exact ⟨.ask ends hrest.ends, hrest.grows⟩

/-- **Without circles the examination of a method ends with its answer.** -/
theorem methodFits_found (hacyclic : s.table.Acyclic) (method : Method) (m : Memory) :
    s.Finds (s.exam (.method method) m) m (s.methodFits method m) := by
  rw [exam, methodFits]
  split
  · exact finds_done _ _
  · exact typesFit_found hacyclic method.crossing m

/-- **The running answer to every question is found without a limit.** -/
theorem ask_found (hacyclic : s.table.Acyclic) (q : Question) (m : Memory) :
    s.Finds (s.exam q m) m (s.ask q m) := by
  cases q with
  | value t => exact typeFits_found hacyclic t m
  | pointee t => exact pointeeFits_found hacyclic t m
  | record usr => exact (typeFits_found hacyclic (.record usr) m).of_pass
  | typedef usr => exact typedefFits_found hacyclic usr m
  | method method => exact methodFits_found hacyclic method m

/-- **Every examination ends**, whatever is remembered and however records hold
themselves and each other, where no typedef or enum is made from itself.
Questions are not nested for ever; each has one verdict, and it is the running
one. -/
theorem examinations_end (hacyclic : s.table.Acyclic) :
    (WellFounded fun c c' : Question × Memory => s.Asks (s.exam c'.1 c'.2) c) ∧
    ∀ q m, (∃! v, s.Ends (s.exam q m) v) ∧ s.Ends (s.exam q m) (s.ask q m) := by
  have hends : ∀ q m, s.Ends (s.exam q m) (s.ask q m) := fun q m => (ask_found hacyclic q m).ends
  refine ⟨wellFounded_asks fun q m => ⟨_, hends q m⟩, fun q m => ⟨⟨_, hends q m, ?_⟩, hends q m⟩⟩
  exact fun v hv => hv.unique (hends q m)

end Scope

/-- A struct that holds itself through a typedef, two structs that hold each
other, one of them in an array, and a struct with a pointer to an array of the
first. -/
def wheelScope : Scope where
  table :=
    { definitions :=
        [.implicit "t:Wheel" "Wheel" (.typedef (.record "s:Wheel")),
         .implicit "s:Wheel" "Wheel" (.record
           [.implicit "hub" "hub" (.field (.ofName "Wheel") none)] .struct),
         .implicit "s:Left" "Left" (.record
           [.implicit "other" "other" (.field (.record "s:Right") none)] .struct),
         .implicit "s:Right" "Right" (.record
           [.implicit "others" "others" (.field (.constantArray (.record "s:Left") 2) none)]
           .struct),
         .implicit "s:Axle" "Axle" (.record
           [.implicit "left" "left" (.field (.record "s:Left") none),
            .implicit "wheels" "wheels" (.field
              (.pointer (.constantArray (.ofName "Wheel") 2)) none)] .struct)] }
  used := {}
  rules := []
  tagNames := []

/-- The typedef is above the struct that it names. -/
def wheelRank (usr : Usr) : Nat := if usr = "t:Wheel" then 1 else 0

/-- The examination of the last struct ends.  With nothing remembered it stops at
the struct that comes up again; with a wrong answer about that one it goes on to
the array behind the pointer. -/
theorem wheel_examinations_end :
    wheelScope.table.Acyclic ∧
    wheelScope.Ends (wheelScope.exam (.record "s:Axle") [])
      (.ok false, [("s:Axle", false), ("s:Left", false), ("s:Right", false), ("s:Right", false),
        ("s:Left", false), ("s:Axle", false)]) ∧
    wheelScope.Ends (wheelScope.exam (.record "s:Axle") [("s:Right", true)])
      (.ok false, [("s:Axle", false), ("s:Wheel", false), ("s:Wheel", false), ("s:Left", true),
        ("s:Left", false), ("s:Axle", false), ("s:Right", true)]) := by
  have hfalls : wheelScope.table.Falls wheelRank := by
    show ∀ d ∈ wheelScope.table.definitions ++ [], ∀ type ∈ d.underlying?,
      ∀ usr ∈ type.mentioned, wheelRank usr < wheelRank d.usr
    decide
  have hacyclic : wheelScope.table.Acyclic := Table.acyclic_of_rank hfalls
  obtain ⟨_, hends⟩ := Scope.examinations_end hacyclic
  have hblank : wheelScope.ask (.record "s:Axle") [] = (.ok false, [("s:Axle", false),
      ("s:Left", false), ("s:Right", false), ("s:Right", false), ("s:Left", false),
      ("s:Axle", false)]) := by cbv
  have hwrong : wheelScope.ask (.record "s:Axle") [("s:Right", true)] = (.ok false,
      [("s:Axle", false), ("s:Wheel", false), ("s:Wheel", false), ("s:Left", true),
        ("s:Left", false), ("s:Axle", false), ("s:Right", true)]) := by cbv
  exact ⟨hacyclic, hblank ▸ (hends _ []).2, hwrong ▸ (hends _ [("s:Right", true)]).2⟩

end ObjcBindings
