/-
  ObjcBindings.Proofs.QuestionHistory
  ────────────────────────────────
  **WHAT WAS ASKED BEFORE DOES NOT CHANGE AN ANSWER.**

  One memory serves all questions about a scope, in whatever order they are
  asked and whatever becomes of them.  The right answer is the one that the
  least solution of the rules gives:

      Question       — about a value, a pointer, a record, a typedef, a method
      Affirms        — the rules say yes
      Excuses        — a failure that something needed for the answer causes

    • `sound_memoryAfter` — no history leaves a wrong answer behind,
    • `ask_after` — so after any history an answer is right, and where there is
      none, something that the question needs is to blame.
-/
import ObjcBindings.Proofs.RememberedAnswers
import ObjcBindings.Proofs.TableContents
import Mathlib

namespace ObjcBindings

/-! ## §1. Questions. -/

/-- What can be asked about the declarations of a scope. -/
inductive Question where
  /-- Can values of the type cross a message send? -/
  | value (t : TypeExpr)
  /-- Can pointers to the type? -/
  | pointee (t : TypeExpr)
  /-- Does the record have a layout? -/
  | record (usr : Usr)
  /-- Is the typedef written? -/
  | typedef (usr : Usr)
  /-- Is the method bound? -/
  | method (m : Method)

namespace Scope

/-- Ask with what is remembered so far. -/
def ask (s : Scope) : Question → Memory → Verdict
  | .value t => s.typeFits t
  | .pointee t => s.pointeeFits t
  | .record usr => s.recordFits usr
  | .typedef usr => s.typedefFits usr
  | .method m => s.methodFits m

/-- What is remembered after some questions, answered or failed. -/
def memoryAfter (s : Scope) (history : List Question) : Memory :=
  history.foldl (fun m q => (s.ask q m).2) []

/-- The right answer is yes. -/
def Affirms (s : Scope) : Question → Prop
  | .value t => s.Crosses .value t
  | .pointee t => s.Crosses .pointee t
  | .record usr => s.Crosses .value (.record usr)
  | .typedef usr => ∃ d type, s.typedef usr = .ok (d, type) ∧
      (s.Crosses .value type ∨ s.Crosses .pointee type)
  | .method m => s.Binds m

/-- Something that the answer needs ends with the failure. -/
def Excuses (s : Scope) : Question → Failure → Prop
  | .value t, e => s.Blames (.value, t) e
  | .pointee t, e => s.Blames (.pointee, t) e
  | .record usr, e => s.Blames (.value, .record usr) e
  | .typedef usr, e => s.typedef usr = .error e ∨
      ∃ d type use, s.typedef usr = .ok (d, type) ∧ s.Blames (use, type) e
  | .method m, e => ∃ t, m.Carries t ∧ s.Blames (.value, t) e

/-! ## §2. One question. -/

variable {s : Scope} {m : Memory}

/-- A typedef that is not found fails, and changes nothing. -/
theorem typedefFits_of_missing {usr : Usr} {e : Failure} (missing : s.typedef usr = .error e) :
    s.typedefFits usr m = (.error e, m) := by
  unfold typedefFits
  simp only [missing]

/-- **One question keeps the memory sound**, and its answer is right. -/
theorem ask_just (q : Question) (hm : m.Sound s []) :
    (s.ask q m).IsJust s [] (s.Affirms q) (s.Excuses q) := by
  cases q with
  | value t => exact typeFits_just hm
  | pointee t => exact pointeeFits_just hm
  | record usr => exact typeFits_just hm
  | method method => exact methodFits_just method hm
  | typedef usr =>
      cases hfind : s.typedef usr with
      | error e =>
          show (s.typedefFits usr m).IsJust s [] _ _
          rw [typedefFits_of_missing hfind]
          exact ⟨hm, .inl hfind⟩
      | ok found =>
          obtain ⟨d, type⟩ := found
          refine (typedefFits_just hfind hm).imp ?_ fun e he => ?_
          · -- The typedef that is found is the one that is meant.
            constructor
            · exact fun hc => ⟨d, type, hfind, hc⟩
            · rintro ⟨d', type', hfind', hc⟩
              rw [hfind] at hfind'
              cases hfind'
              exact hc
          · obtain ⟨use, hblames⟩ := he
            exact .inr ⟨d, type, use, hfind, hblames⟩

/-! ## §3. Histories. -/

theorem memoryAfter_concat (s : Scope) (history : List Question) (q : Question) :
    s.memoryAfter (history ++ [q]) = (s.ask q (s.memoryAfter history)).2 := by
  rw [memoryAfter, List.foldl_append]
  rfl

/-- **No history leaves a wrong answer behind.** -/
theorem sound_memoryAfter (s : Scope) (history : List Question) :
    (s.memoryAfter history).Sound s [] := by
  induction history using List.reverseRecOn with
  | nil => exact Memory.sound_nil s
  | append_singleton history q ih =>
      rw [memoryAfter_concat]
      exact (ask_just q ih).1

/-- **After any history an answer is the one of the rules**, and a failure is
that of something which the question needs. -/
theorem ask_after (s : Scope) (history : List Question) (q : Question) :
    match (s.ask q (s.memoryAfter history)).1 with
    | .ok b => b = true ↔ s.Affirms q
    | .error e => s.Excuses q e :=
  (ask_just q (s.sound_memoryAfter history)).2

end Scope

/-- A struct that holds one with a field of a type that is defined through
itself. -/
def strangeScope : Scope where
  table :=
    { definitions :=
        [.implicit "s:Outer" "Outer" (.record
           [.implicit "inner" "inner" (.field (.record "s:Inner") none)] .struct),
         .implicit "s:Inner" "Inner" (.record
           [.implicit "x" "x" (.field (.ofName "Loop") none)] .struct),
         .implicit "t:Loop" "Loop" (.typedef (.pointer (.ofName "Loop")))] }
  used := {}
  rules := []
  tagNames := []

-- A question that fails leaves the right answers behind, for the record and for those inside it.
example : (strangeScope.ask (.record "s:Outer") []).1 = .error (.circular "t:Loop") ∧
    strangeScope.memoryAfter [.record "s:Outer"] = [("s:Inner", false), ("s:Outer", false)] ∧
    (strangeScope.ask (.record "s:Outer") (strangeScope.memoryAfter [.record "s:Outer"])).1
      = .ok false := by
  refine ⟨?_, ?_, ?_⟩ <;> cbv

end ObjcBindings
