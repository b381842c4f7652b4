/-
  ObjcBindings.Proofs.PatternMatches
  ────────────────────────────────
  **WHAT A PATTERN MATCHES.**

  `run` tries alternatives in an order, and goes back when what comes next
  fails.  Which places a pattern leads to has nothing to do with that order:

      Pattern.Matches   — the pattern leads from one place to another
      Pattern.FoundIn   — it leads somewhere from a place of the text
      Pattern.Spells    — it does so exactly by taking a word of a language
      Pattern.Finishes  — and exactly to the end of the text

  Main results:
    • `run_realizes` — the matcher goes on from the places that the pattern
      leads to, and from no others,
    • `search?_eq_none_iff`, `exists_foundIn_of_search?` — so a search fails
      exactly if nothing is found, and its groups are those of something found.
-/
import Mathlib.Computability.Language
import ObjcBindings.Text.Pattern

namespace ObjcBindings.Text

open scoped Computability

namespace Place

/-- The place after the characters `xs`, of which `rest` is left. -/
def beyond (p : Place) (xs rest : List Char) : Place :=
  ⟨xs.reverse ++ p.before, rest, p.groups⟩

@[simp] theorem after_beyond (p : Place) (xs rest : List Char) : (p.beyond xs rest).after = rest :=
  rfl

@[simp] theorem groups_beyond (p : Place) (xs rest : List Char) :
    (p.beyond xs rest).groups = p.groups := rfl

/-- Going beyond twice is going beyond both texts. -/
@[simp] theorem beyond_beyond (p : Place) (xs ys rest rest' : List Char) :
    (p.beyond xs rest).beyond ys rest' = p.beyond (xs ++ ys) rest' := by
  simp [beyond]

theorem beyond_nil (p : Place) : p.beyond [] p.after = p := rfl

/-- What was taken since the earlier place. -/
theorem since_beyond {p : Place} {xs rest : List Char} (h : p.after = xs ++ rest) :
    (p.beyond xs rest).since p = xs := by
  simp [since, h]

end Place

namespace Pattern

/-! ## §1. Rounds of a repetition. -/

section Rounds

variable {R : Place → Place → Prop} {n m : Nat} {p q r : Place}

/-- Exactly `n` rounds lead from one place to the other. -/
def Rounds (R : Place → Place → Prop) : Nat → Place → Place → Prop
  | 0, p, q => p = q
  | n + 1, p, q => ∃ r, R p r ∧ Rounds R n r q

/-- Any number of rounds, each of which takes a character. -/
inductive Further (R : Place → Place → Prop) : Place → Place → Prop
  | stop (p : Place) : Further R p p
  | again {p q r : Place} : R p r → r.after.length < p.after.length → Further R r q → Further R p q

/-- One round and, if it takes a character, further ones. -/
inductive Loop (R : Place → Place → Prop) : Place → Place → Prop
  | only {p q : Place} : R p q → ¬ q.after.length < p.after.length → Loop R p q
  | first {p q r : Place} : R p r → r.after.length < p.after.length → Further R r q → Loop R p q

/-- At least `n` rounds, of which the last is the first one of a loop. -/
def AtLeast (R : Place → Place → Prop) : Nat → Place → Place → Prop
  | 0, p, q => p = q ∨ Loop R p q
  | n + 1, p, q => ∃ r, Rounds R n p r ∧ Loop R r q

end Rounds

/-! ## §2. Where a pattern leads. -/

/-- The pattern leads from one place to another. -/
def Matches : Pattern → Place → Place → Prop
  | .empty, p, q => p = q
  | .one set, p, q => ∃ c rest, set.contains c = true ∧ p.after = c :: rest ∧ p.beyond [c] rest = q
  | .start, p, q => p.before = [] ∧ p = q
  | .finish, p, q => p.after = [] ∧ p = q
  | .lineStart, p, q => (p.before = [] ∨ p.before.head? = some '\n') ∧ p = q
  | .lineFinish, p, q => (p.after = [] ∨ p.after.head? = some '\n') ∧ p = q
  | .wordEdge inside, p, q => p.atWordEdge ≠ inside ∧ p = q
  | .seq a b, p, q => ∃ r, a.Matches p r ∧ b.Matches r q
  | .alt a b, p, q => a.Matches p q ∨ b.Matches p q
  | .rep body least (some most) _, p, q =>
      ∃ r n, Rounds body.Matches least p r ∧ n ≤ most - least ∧ Rounds body.Matches n r q
  | .rep body least none _, p, q => AtLeast body.Matches least p q
  | .group index body, p, q =>
      ∃ r, body.Matches p r ∧ { r with groups := (index, r.since p) :: r.groups } = q

/-- A matcher goes on from the places that the relation leads to, and from no
others.  Which of them it prefers is left open. -/
structure Realizes {α : Type} (match' : Next α → Next α) (R : Place → Place → Prop) : Prop where
  sound {next : Next α} {p : Place} {x : α} :
    match' next p = some x → ∃ q, R p q ∧ next q = some x
  complete {next : Next α} {p q : Place} :
    R p q → (next q).isSome = true → (match' next p).isSome = true

section Realizes

variable {α : Type} {round : Next α → Next α} {R : Place → Place → Prop}

/-- Two matchers one after the other. -/
theorem Realizes.seq {first second : Next α → Next α} {S : Place → Place → Prop}
    (hR : Realizes first R) (hS : Realizes second S) :
    Realizes (fun next => first (second next)) (fun p q => ∃ r, R p r ∧ S r q) := by
  constructor
  · intro next p x hx
    obtain ⟨r, hpr, hr⟩ := hR.sound hx
    obtain ⟨q, hrq, hq⟩ := hS.sound hr
    exact ⟨q, ⟨r, hpr, hrq⟩, hq⟩
  · rintro next p q ⟨r, hpr, hrq⟩ hq
    exact hR.complete hpr (hS.complete hrq hq)

/-- A test leads on from where it holds, and to the same place. -/
theorem check_realizes {test : Place → Bool} {P : Place → Prop}
    (h : ∀ p, test p = true ↔ P p) :
    Realizes (check (α := α) test) (fun p q => P p ∧ p = q) where
  sound {next p x} hx := by
    rw [check] at hx
    split at hx
    · next htest => exact ⟨p, ⟨(h p).1 htest, rfl⟩, hx⟩
    · cases hx
  complete {next p q} hpq hq := by
    obtain ⟨hP, rfl⟩ := hpq
    rwa [check, if_pos ((h p).2 hP)]

/-- The matcher of `n` rounds from the matcher of one. -/
theorem exactly_realizes (h : Realizes round R) (n : Nat) :
    Realizes (exactly round n) (Rounds R n) := by
  induction n with
  | zero =>
      constructor
      · intro next p x hx
        exact ⟨p, rfl, hx⟩
      · rintro next p _ rfl hq
        exact hq
  | succ n ih =>
      constructor
      · intro next p x hx
        obtain ⟨r, hpr, hr⟩ := h.sound hx
        obtain ⟨q, hrq, hq⟩ := ih.sound hr
        exact ⟨q, ⟨r, hpr, hrq⟩, hq⟩
      · rintro next p q ⟨r, hpr, hrq⟩ hq
        exact h.complete hpr (ih.complete hrq hq)

/-- Greed decides which of going on and stopping is tried first. -/
theorem roundOrStop_eq (greedy : Bool) (first stop : Next α) (p : Place) :
    roundOrStop greedy first stop p =
      if greedy then (first p).or (stop p) else (stop p).or (first p) := by
  rw [roundOrStop]
  split
  · cases first p <;> rfl
  · cases stop p <;> rfl

/-- What goes round or stops does one of the two. -/
theorem roundOrStop_eq_some {greedy : Bool} {first stop : Next α} {p : Place} {x : α}
    (h : roundOrStop greedy first stop p = some x) : first p = some x ∨ stop p = some x := by
  rw [roundOrStop_eq] at h
  split at h
  · exact (Option.or_eq_some_iff.1 h).imp_right And.right
  · exact (Option.or_eq_some_iff.1 h).symm.imp_left And.right

/-- What goes round or stops has a result if one of the two has. -/
theorem isSome_roundOrStop (greedy : Bool) (first stop : Next α) (p : Place) :
    (roundOrStop greedy first stop p).isSome = ((first p).isSome || (stop p).isSome) := by
  rw [roundOrStop_eq]
  split
  · exact Option.isSome_or
  · exact Option.isSome_or.trans (Bool.or_comm _ _)

/-- A matcher that goes round or stops goes on from where a round leads, and from
where it is. -/
theorem roundOrStop_realizes {match' : Next α → Next α} {S : Place → Place → Prop}
    (h : Realizes match' S) (greedy : Bool) :
    Realizes (fun next => roundOrStop greedy (match' next) next) (fun p q => p = q ∨ S p q) := by
  constructor
  · intro next p x hx
    rcases roundOrStop_eq_some hx with hround | hstop
    · obtain ⟨q, hpq, hq⟩ := h.sound hround
      exact ⟨q, .inr hpq, hq⟩
    · exact ⟨p, .inl rfl, hstop⟩
  · rintro next p q (rfl | hpq) hq
    · rw [isSome_roundOrStop, hq, Bool.or_true]
    · rw [isSome_roundOrStop, h.complete hpq hq, Bool.true_or]

/-- The rounds of a bounded repetition are counted. -/
theorem atMost_realizes (h : Realizes round R) (greedy : Bool) (n : Nat) :
    Realizes (atMost round greedy n) (fun p q => ∃ m ≤ n, Rounds R m p q) := by
  induction n with
  | zero =>
      -- No round is left, so the place is where the repetition stops.
      constructor
      · intro next p x hx
        exact ⟨p, ⟨0, Nat.le_refl 0, rfl⟩, hx⟩
      · rintro next p q ⟨m, hm, hrounds⟩ hq
        obtain rfl := Nat.le_zero.1 hm
        obtain rfl : p = q := hrounds
        exact hq
  | succ n ih =>
      -- What goes on after one round is the repetition with a round less.
      constructor
      · intro next p x hx
        rcases roundOrStop_eq_some hx with hround | hstop
        · obtain ⟨r, hpr, hr⟩ := h.sound hround
          obtain ⟨q, ⟨m, hm, hrounds⟩, hq⟩ := ih.sound hr
          exact ⟨q, ⟨m + 1, Nat.succ_le_succ hm, r, hpr, hrounds⟩, hq⟩
        · exact ⟨p, ⟨0, Nat.zero_le _, rfl⟩, hstop⟩
      · rintro next p q ⟨m, hm, hrounds⟩ hq
        show (roundOrStop greedy (round (atMost round greedy n next)) next p).isSome = true
        rw [isSome_roundOrStop]
        cases m with
        | zero =>
            obtain rfl : p = q := hrounds
            rw [hq, Bool.or_true]
        | succ m =>
            obtain ⟨r, hpr, hrounds⟩ := hrounds
            have hrest := ih.complete ⟨m, Nat.le_of_succ_le_succ hm, hrounds⟩ hq
            rw [h.complete hpr hrest, Bool.true_or]

/-- A round that takes a character leads on from where it ends. -/
theorem takingRound_eq_some (h : Realizes round R) {later : Next α} {p : Place} {x : α}
    (hx : takingRound round later p = some x) :
    ∃ r, R p r ∧ r.after.length < p.after.length ∧ later r = some x := by
  obtain ⟨r, hpr, hr⟩ := h.sound hx
  split at hr
  · next htook => exact ⟨r, hpr, htook, hr⟩
  · cases hr

/-- A round that takes a character leads on if what comes later does. -/
theorem isSome_takingRound (h : Realizes round R) {later : Next α} {p r : Place} (hpr : R p r)
    (htook : r.after.length < p.after.length) (hlater : (later r).isSome = true) :
    (takingRound round later p).isSome = true :=
  h.complete hpr (by rwa [if_pos htook])

/-- Further rounds lead where the relation says. -/
theorem further_sound (h : Realizes round R) {greedy : Bool} {next : Next α} {x : α} :
    ∀ {n : Nat} {p : Place}, further round greedy n next p = some x →
      ∃ q, Further R p q ∧ next q = some x
  | 0, p, hx => ⟨p, .stop p, hx⟩
  | n + 1, p, hx => by
      rcases roundOrStop_eq_some hx with hround | hstop
      · obtain ⟨r, hpr, htook, hr⟩ := takingRound_eq_some h hround
        obtain ⟨q, hrq, hq⟩ := further_sound h hr
        exact ⟨q, .again hpr htook hrq, hq⟩
      · exact ⟨p, .stop p, hstop⟩

/-- **The characters left over bound the rounds**: each of them takes one. -/
theorem further_complete (h : Realizes round R) {greedy : Bool} {next : Next α} {p q : Place}
    (hpq : Further R p q) (hq : (next q).isSome = true) :
    ∀ {n : Nat}, p.after.length ≤ n → (further round greedy n next p).isSome = true := by
  induction hpq with
  | stop p =>
      intro n _
      cases n with
      | zero => exact hq
      | succ n =>
          show (roundOrStop greedy _ next p).isSome = true
          rw [isSome_roundOrStop, hq, Bool.or_true]
  | again hpr htook _ ih =>
      intro n hn
      cases n with
      | zero => exact absurd (Nat.lt_of_lt_of_le htook hn) (Nat.not_lt_zero _)
      | succ n =>
          have hrest := ih hq (Nat.le_of_lt_succ (Nat.lt_of_lt_of_le htook hn))
          show (roundOrStop greedy (takingRound round _) next _).isSome = true
          rw [isSome_roundOrStop, isSome_takingRound h hpr htook hrest, Bool.true_or]

/-- The matcher of a loop from the matcher of a round. -/
theorem loop_realizes (h : Realizes round R) (greedy : Bool) :
    Realizes (loop round greedy) (Loop R) := by
  constructor
  · intro next p x hx
    obtain ⟨r, hpr, hr⟩ := h.sound hx
    split at hr
    · next htook =>
      obtain ⟨q, hrq, hq⟩ := further_sound h hr
      exact ⟨q, .first hpr htook hrq, hq⟩
    · next htook => exact ⟨r, .only hpr htook, hr⟩
  · intro next p q hpq hq
    cases hpq with
    | only hpq htook => exact h.complete hpq (by rwa [if_neg htook])
    | first hpr htook hrq =>
        refine h.complete hpr ?_
        rw [if_pos htook]
        exact further_complete h hrq hq (Nat.le_refl _)

/-- The matcher of at least `n` rounds from the matcher of one. -/
theorem atLeast_realizes (h : Realizes round R) (greedy : Bool) (n : Nat) :
    Realizes (atLeast round greedy n) (AtLeast R n) := by
  cases n with
  | zero => exact roundOrStop_realizes (loop_realizes h greedy) greedy
  | succ n => exact (exactly_realizes h n).seq (loop_realizes h greedy)

/-- The matcher of a repetition from the matcher of its body. -/
theorem rep_realizes {body : Pattern} (h : Realizes (body.run (α := α)) body.Matches)
    (least : Nat) (most : Option Nat) (greedy : Bool) :
    Realizes ((Pattern.rep body least most greedy).run (α := α))
      (Pattern.rep body least most greedy).Matches := by
  cases most with
  | none => exact atLeast_realizes h greedy least
  | some most =>
      have hseq := (exactly_realizes h least).seq (atMost_realizes h greedy (most - least))
      constructor
      · intro next p x hx
        obtain ⟨q, ⟨r, hpr, n, hn, hrq⟩, hq⟩ := hseq.sound hx
        exact ⟨q, ⟨r, n, hpr, hn, hrq⟩, hq⟩
      · rintro next p q ⟨r, n, hpr, hn, hrq⟩ hq
        exact hseq.complete ⟨r, hpr, n, hn, hrq⟩ hq

/-- **The matcher goes on from the places that the pattern leads to**, and from
no others. -/
theorem run_realizes (pattern : Pattern) : Realizes (pattern.run (α := α)) pattern.Matches := by
  induction pattern with
  | empty =>
      constructor
      · intro next p x hx
        exact ⟨p, rfl, hx⟩
      · rintro next p _ rfl hq
        exact hq
  | one set =>
      constructor
      · intro next p x hx
        rw [run] at hx
        split at hx
        · cases hx
        · next c rest hafter =>
          split at hx
          · next hc => exact ⟨_, ⟨c, rest, hc, hafter, rfl⟩, hx⟩
          · cases hx
      · rintro next p _ ⟨c, rest, hc, hafter, rfl⟩ hq
        simp only [run, hafter, if_pos hc]
        exact hq
  | start => exact check_realizes fun p => List.isEmpty_iff
  | finish => exact check_realizes fun p => List.isEmpty_iff
  | lineStart => exact check_realizes fun p => by simp
  | lineFinish => exact check_realizes fun p => by simp
  | wordEdge inside => exact check_realizes fun p => by simp
  | seq a b iha ihb => exact iha.seq ihb
  | alt a b iha ihb =>
      -- The second way is tried where nothing comes of the first.
      have hrun (next : Next α) (p : Place) :
          (Pattern.alt a b).run next p = (a.run next p).or (b.run next p) := by
        rw [run]
        cases a.run next p <;> rfl
      constructor
      · intro next p x hx
        rw [hrun] at hx
        obtain hfirst | ⟨_, hsecond⟩ := Option.or_eq_some_iff.1 hx
        · obtain ⟨q, hpq, hq⟩ := iha.sound hfirst
          exact ⟨q, .inl hpq, hq⟩
        · obtain ⟨q, hpq, hq⟩ := ihb.sound hsecond
          exact ⟨q, .inr hpq, hq⟩
      · intro next p q hpq hq
        rw [hrun, Option.isSome_or, Bool.or_eq_true]
        exact hpq.imp (iha.complete · hq) (ihb.complete · hq)
  | rep body least most greedy ih => exact rep_realizes ih least most greedy
  | group index body ih =>
      -- The group is noted where the body ends, before what goes on from there.
      constructor
      · intro next p x hx
        obtain ⟨r, hpr, hr⟩ := ih.sound hx
        exact ⟨_, ⟨r, hpr, rfl⟩, hr⟩
      · rintro next p _ ⟨r, hpr, rfl⟩ hq
        exact ih.complete hpr hq

end Realizes

/-! ## §3. Searching. -/

/-- The pattern leads somewhere from a place of the text. -/
def FoundIn (pattern : Pattern) (text : List Char) (q : Place) : Prop :=
  ∃ before after, text = before ++ after ∧ pattern.Matches ⟨before.reverse, after, []⟩ q

section Search

variable {pattern : Pattern} {groups : List (Nat × List Char)} {text : String} {q : Place}

/-- What a run that ends with the groups finds. -/
theorem exists_matches_of_run {p : Place}
    (h : pattern.run (fun p => some p.groups) p = some groups) :
    ∃ q, pattern.Matches p q ∧ q.groups = groups := by
  obtain ⟨q, hq, hgroups⟩ := (run_realizes pattern).sound h
  exact ⟨q, hq, Option.some.inj hgroups⟩

/-- A run from where the pattern leads somewhere finds something. -/
theorem run_ne_none {p : Place} (h : pattern.Matches p q) :
    pattern.run (fun p => some p.groups) p ≠ none :=
  Option.isSome_iff_ne_none.1 ((run_realizes pattern).complete h rfl)

/-- The invariant of the search: the places from here on are those that are left. -/
theorem exists_of_searchFrom? {before after : List Char}
    (h : pattern.searchFrom? before after = some groups) :
    ∃ xs rest q, after = xs ++ rest ∧
      pattern.Matches ⟨xs.reverse ++ before, rest, []⟩ q ∧ q.groups = groups := by
  induction after generalizing before with
  | nil =>
      obtain ⟨q, hq, hgroups⟩ := exists_matches_of_run h
      exact ⟨[], [], q, rfl, hq, hgroups⟩
  | cons c after ih =>
      rw [searchFrom?] at h
      split at h
      · next found hrun =>
        obtain rfl := Option.some.inj h
        obtain ⟨q, hq, hgroups⟩ := exists_matches_of_run hrun
        exact ⟨[], c :: after, q, rfl, hq, hgroups⟩
      · obtain ⟨xs, rest, q, rfl, hq, hgroups⟩ := ih h
        exact ⟨c :: xs, rest, q, rfl, by simpa using hq, hgroups⟩

/-- A search finds something if the pattern leads somewhere further on. -/
theorem searchFrom?_ne_none {before xs rest : List Char}
    (h : pattern.Matches ⟨xs.reverse ++ before, rest, []⟩ q) :
    pattern.searchFrom? before (xs ++ rest) ≠ none := by
  induction xs generalizing before with
  | nil =>
      cases rest with
      | nil => exact run_ne_none h
      | cons c rest =>
          rw [List.nil_append, searchFrom?]
          split
          · exact Option.some_ne_none _
          · next hnone => exact absurd hnone (run_ne_none h)
  | cons c xs ih =>
      rw [List.cons_append, searchFrom?]
      split
      · exact Option.some_ne_none _
      · exact ih (by simpa using h)

/-- **The groups of a search are those of something found.** -/
theorem exists_foundIn_of_search? (h : pattern.search? text = some groups) :
    ∃ q, pattern.FoundIn text.toList q ∧ q.groups = groups := by
  obtain ⟨xs, rest, q, htext, hq, hgroups⟩ := exists_of_searchFrom? h
  rw [List.append_nil] at hq
  exact ⟨q, ⟨xs, rest, htext, hq⟩, hgroups⟩

-- A round that takes nothing after one that did leaves the group of that one.
example : (Pattern.star (.group 1 (.star (.char 'a')))).search? "aa" = some [(1, ['a', 'a'])] := by
  cbv

/-- **A search fails exactly if nothing is found.** -/
theorem search?_eq_none_iff :
    pattern.search? text = none ↔ ∀ q, ¬ pattern.FoundIn text.toList q := by
  constructor
  · rintro h q ⟨before, after, htext, hq⟩
    rw [search?, htext] at h
    exact searchFrom?_ne_none (by rwa [List.append_nil]) h
  · intro h
    cases hsearch : pattern.search? text with
    | none => rfl
    | some groups =>
        obtain ⟨q, hq, _⟩ := exists_foundIn_of_search? hsearch
        exact absurd hq (h q)

end Search

/-! ## §4. Patterns as languages. -/

/-- The pattern leads from a place exactly to those after a word of the language. -/
def Spells (pattern : Pattern) (L : Language Char) : Prop :=
  ∀ p q, pattern.Matches p q ↔ ∃ xs ∈ L, ∃ rest, p.after = xs ++ rest ∧ p.beyond xs rest = q

/-- The words of one character of the set. -/
def letters (set : CharSet) : Language Char := {xs | ∃ c, set.contains c = true ∧ xs = [c]}

/-- The words of one or more characters of the set. -/
def runs (set : CharSet) : Language Char := {xs | xs ≠ [] ∧ ∀ c ∈ xs, set.contains c = true}

/-- The given names. -/
def among (names : List String) : Language Char := {xs | ∃ name ∈ names, xs = name.toList}

section Spells

variable {a b : Pattern} {L M : Language Char} {p q : Place}

/-- A word of a product is a word of each factor, one after the other. -/
theorem exists_mem_mul {P : List Char → Prop} :
    (∃ xs ∈ L * M, P xs) ↔ ∃ xs ∈ L, ∃ ys ∈ M, P (xs ++ ys) := by
  constructor
  · rintro ⟨_, hmul, hP⟩
    obtain ⟨xs, hxs, ys, hys, rfl⟩ := Language.mem_mul.1 hmul
    exact ⟨xs, hxs, ys, hys, hP⟩
  · rintro ⟨xs, hxs, ys, hys, hP⟩
    exact ⟨_, Language.append_mem_mul hxs hys, hP⟩

theorem exists_mem_singleton {xs : List Char} {P : List Char → Prop} :
    (∃ ys ∈ ({xs} : Language Char), P ys) ↔ P xs := by
  constructor
  · rintro ⟨_, rfl, hP⟩
    exact hP
  · intro hP
    exact ⟨xs, rfl, hP⟩

/-- The empty pattern takes the empty word. -/
theorem empty_spells : Spells .empty 1 := by
  intro p q
  simp only [Matches, Language.mem_one]
  constructor
  · rintro rfl
    exact ⟨[], rfl, p.after, rfl, p.beyond_nil⟩
  · rintro ⟨_, rfl, rest, hafter, rfl⟩
    rw [List.nil_append] at hafter
    rw [← hafter, p.beyond_nil]

/-- A set of characters takes the words of one of them. -/
theorem one_spells (set : CharSet) : Spells (.one set) (letters set) := by
  intro p q
  constructor
  · rintro ⟨c, rest, hc, hafter, rfl⟩
    exact ⟨[c], ⟨c, hc, rfl⟩, rest, hafter, rfl⟩
  · rintro ⟨_, ⟨c, hc, rfl⟩, rest, hafter, rfl⟩
    exact ⟨c, rest, hc, hafter, rfl⟩

/-- A pattern after one that spells a language. -/
theorem seq_matches_iff (ha : a.Spells L) :
    (Pattern.seq a b).Matches p q ↔
      ∃ xs ∈ L, ∃ rest, p.after = xs ++ rest ∧ b.Matches (p.beyond xs rest) q := by
  constructor
  · rintro ⟨r, hpr, hrq⟩
    obtain ⟨xs, hxs, rest, hafter, rfl⟩ := (ha p r).1 hpr
    exact ⟨xs, hxs, rest, hafter, hrq⟩
  · rintro ⟨xs, hxs, rest, hafter, hrq⟩
    exact ⟨p.beyond xs rest, (ha _ _).2 ⟨xs, hxs, rest, hafter, rfl⟩, hrq⟩

/-- A sequence takes a word of the one and then a word of the other. -/
theorem seq_spells (ha : a.Spells L) (hb : b.Spells M) : (Pattern.seq a b).Spells (L * M) := by
  intro p q
  rw [seq_matches_iff ha]
  constructor
  · rintro ⟨xs, hxs, rest, hafter, hmatches⟩
    obtain ⟨ys, hys, rest', hrest, rfl⟩ := (hb _ _).1 hmatches
    rw [Place.after_beyond] at hrest
    exact ⟨xs ++ ys, Language.append_mem_mul hxs hys, rest',
      by rw [hafter, hrest, List.append_assoc], (p.beyond_beyond xs ys rest rest').symm⟩
  · rintro ⟨_, hxys, rest, hafter, rfl⟩
    obtain ⟨xs, hxs, ys, hys, rfl⟩ := Language.mem_mul.1 hxys
    rw [List.append_assoc] at hafter
    exact ⟨xs, hxs, ys ++ rest, hafter, (hb _ _).2 ⟨ys, hys, rest, rfl, p.beyond_beyond ..⟩⟩

/-- A choice takes a word of either. -/
theorem alt_spells (ha : a.Spells L) (hb : b.Spells M) : (Pattern.alt a b).Spells (L + M) := by
  intro p q
  rw [Matches, ha p q, hb p q]
  simp only [Language.mem_add, or_and_right, exists_or]

/-- A group remembers the word that its body takes. -/
theorem group_matches_iff {index : Nat} (ha : a.Spells L) :
    (Pattern.group index a).Matches p q ↔ ∃ xs ∈ L, ∃ rest, p.after = xs ++ rest ∧
      { p.beyond xs rest with groups := (index, xs) :: p.groups } = q := by
  constructor
  · rintro ⟨r, hpr, rfl⟩
    obtain ⟨xs, hxs, rest, hafter, rfl⟩ := (ha p r).1 hpr
    exact ⟨xs, hxs, rest, hafter, by rw [Place.since_beyond hafter, Place.groups_beyond]⟩
  · rintro ⟨xs, hxs, rest, hafter, rfl⟩
    exact ⟨p.beyond xs rest, (ha _ _).2 ⟨xs, hxs, rest, hafter, rfl⟩,
      by rw [Place.since_beyond hafter, Place.groups_beyond]⟩

/-! ### Fixed texts. -/

theorem contains_one {c d : Char} : (CharSet.one c).contains d = true ↔ d = c := by
  simp only [CharSet.one, CharSet.contains, Bool.and_eq_true, decide_eq_true_eq]
  constructor
  · rintro ⟨hle, hge⟩
    exact Char.le_antisymm hge hle
  · rintro rfl
    exact ⟨Char.le_refl _, Char.le_refl _⟩

/-- The only word of a single character is that character. -/
theorem letters_one (c : Char) : letters (.one c) = {[c]} := by
  ext xs
  constructor
  · rintro ⟨d, hd, rfl⟩
    rw [contains_one.1 hd]
    rfl
  · rintro rfl
    exact ⟨c, contains_one.2 rfl, rfl⟩

/-- A character takes itself. -/
theorem char_spells (c : Char) : (char c).Spells {[c]} :=
  letters_one c ▸ one_spells _

/-- Characters in a row take the word that they make up. -/
theorem concat_chars_spells (cs : List Char) : (concat (cs.map char)).Spells {cs} := by
  induction cs with
  | nil => exact empty_spells
  | cons c cs ih =>
      cases cs with
      | nil => exact char_spells c
      | cons d cs =>
          have hmul : ({[c]} : Language Char) * {d :: cs} = {c :: d :: cs} := Set.image2_singleton
          exact hmul ▸ seq_spells (char_spells c) ih

/-- A literal takes its text. -/
theorem literal_spells (text : String) : (literal text).Spells {text.toList} :=
  concat_chars_spells text.toList

/-- A word among texts is one of them. -/
theorem exists_mem_among {names : List String} {P : List Char → Prop} :
    (∃ xs ∈ among names, P xs) ↔ ∃ name ∈ names, P name.toList := by
  constructor
  · rintro ⟨_, ⟨name, hname, rfl⟩, hP⟩
    exact ⟨name, hname, hP⟩
  · rintro ⟨name, hname, hP⟩
    exact ⟨_, ⟨name, hname, rfl⟩, hP⟩

/-- The words among texts are the first and those among the others. -/
theorem among_cons (name : String) (names : List String) :
    among (name :: names) = {name.toList} + among names := by
  ext xs
  exact List.exists_mem_cons_iff ..

theorem among_singleton (name : String) : among [name] = {name.toList} := by
  have hnil : among [] = 0 := by
    ext xs
    exact iff_of_false (fun ⟨_, hname, _⟩ => List.not_mem_nil hname) (Language.notMem_zero xs)
  rw [among_cons, hnil, add_zero]

/-- A text in two pieces. -/
theorem literal_append_matches_iff (s t : String) :
    (literal (s ++ t)).Matches p q ↔ (Pattern.seq (literal s) (literal t)).Matches p q := by
  have hmul : ({s.toList} : Language Char) * {t.toList} = {(s ++ t).toList} := by
    rw [String.toList_append]
    exact Set.image2_singleton
  have hseq := hmul ▸ seq_spells (literal_spells s) (literal_spells t)
  exact (literal_spells _ p q).trans (hseq p q).symm

/-- A choice of fixed texts. -/
theorem choice_spells {names : List String} (hnames : names ≠ []) :
    (choice (names.map literal)).Spells (among names) := by
  induction names with
  | nil => exact absurd rfl hnames
  | cons name names ih =>
      cases names with
      | nil => exact among_singleton name ▸ literal_spells name
      | cons name' names =>
          exact among_cons name _ ▸ alt_spells (literal_spells name) (ih (List.cons_ne_nil _ _))

/-! ### Repetitions. -/

/-- A word in front of repetitions is one more repetition. -/
theorem append_mem_kstar {xs ys : List Char} (hxs : xs ∈ L) (hys : ys ∈ L∗) : xs ++ ys ∈ L∗ := by
  rw [← Language.one_add_self_mul_kstar_eq_kstar, Language.mem_add]
  exact .inr (Language.append_mem_mul hxs hys)

/-- What further rounds lead to lies after a word of the star. -/
theorem exists_of_further (ha : a.Spells L) (h : Further a.Matches p q) :
    ∃ xs ∈ L∗, ∃ rest, p.after = xs ++ rest ∧ p.beyond xs rest = q := by
  induction h with
  | stop p => exact ⟨[], Language.nil_mem_kstar L, p.after, rfl, p.beyond_nil⟩
  | again hround _ _ ih =>
      obtain ⟨xs, hxs, rest, hafter, rfl⟩ := (ha _ _).1 hround
      obtain ⟨ys, hys, rest', hrest, rfl⟩ := ih
      rw [Place.after_beyond] at hrest
      exact ⟨xs ++ ys, append_mem_kstar hxs hys, rest', by rw [hafter, hrest, List.append_assoc],
        (Place.beyond_beyond ..).symm⟩

/-- A word that is not empty is taken by a round that takes a character. -/
theorem round_of_mem (ha : a.Spells L) {w rest : List Char} (hw : w ∈ L) (hne : w ≠ [])
    (hafter : p.after = w ++ rest) :
    a.Matches p (p.beyond w rest) ∧ (p.beyond w rest).after.length < p.after.length := by
  refine ⟨(ha _ _).2 ⟨w, hw, rest, hafter, rfl⟩, ?_⟩
  have hpos := List.length_pos_iff.2 hne
  simp only [Place.after_beyond, hafter, List.length_append]
  omega

/-- Words that are not empty are taken round by round. -/
theorem further_of_flatten {words : List (List Char)} {rest : List Char} (ha : a.Spells L)
    (hwords : ∀ w ∈ words, w ∈ L ∧ w ≠ []) (hafter : p.after = words.flatten ++ rest) :
    Further a.Matches p (p.beyond words.flatten rest) := by
  induction words generalizing p with
  | nil =>
      rw [List.flatten_nil, List.nil_append] at hafter
      rw [List.flatten_nil, ← hafter, p.beyond_nil]
      exact .stop p
  | cons w words ih =>
      obtain ⟨⟨hw, hne⟩, hwords⟩ := List.forall_mem_cons.1 hwords
      rw [List.flatten_cons, List.append_assoc] at hafter
      obtain ⟨hround, htook⟩ := round_of_mem ha hw hne hafter
      rw [List.flatten_cons, ← p.beyond_beyond w words.flatten (words.flatten ++ rest)]
      exact .again hround htook (ih hwords rfl)

/-- A loop that starts with a word that is not empty. -/
theorem loop_of_flatten {w : List Char} {words : List (List Char)} {rest : List Char}
    (ha : a.Spells L) (hwords : ∀ v ∈ w :: words, v ∈ L ∧ v ≠ [])
    (hafter : p.after = w ++ words.flatten ++ rest) :
    Loop a.Matches p (p.beyond (w ++ words.flatten) rest) := by
  obtain ⟨⟨hw, hne⟩, hwords⟩ := List.forall_mem_cons.1 hwords
  rw [List.append_assoc] at hafter
  obtain ⟨hround, htook⟩ := round_of_mem ha hw hne hafter
  rw [← p.beyond_beyond w words.flatten (words.flatten ++ rest)]
  exact .first hround htook (further_of_flatten ha hwords rfl)

/-- **A loop takes a word of the body and words that follow it.** -/
theorem loop_iff (ha : a.Spells L) :
    Loop a.Matches p q ↔ ∃ xs ∈ L * L∗, ∃ rest, p.after = xs ++ rest ∧ p.beyond xs rest = q := by
  constructor
  · intro h
    cases h with
    | only hround _ =>
        -- The one round takes a word, and none follows.
        obtain ⟨xs, hxs, rest, hafter, hq⟩ := (ha _ _).1 hround
        refine ⟨xs ++ [], Language.append_mem_mul hxs (Language.nil_mem_kstar L), rest, ?_, ?_⟩
        · rw [List.append_nil, hafter]
        · rw [List.append_nil, hq]
    | first hround _ hfurther =>
        obtain ⟨xs, hxs, rest, hafter, rfl⟩ := (ha _ _).1 hround
        obtain ⟨ys, hys, rest', hrest, rfl⟩ := exists_of_further ha hfurther
        rw [Place.after_beyond] at hrest
        exact ⟨xs ++ ys, Language.append_mem_mul hxs hys, rest',
          by rw [hafter, hrest, List.append_assoc], (Place.beyond_beyond ..).symm⟩
  · rintro ⟨_, hmul, rest, hafter, rfl⟩
    obtain ⟨w, hw, ys, hys, rfl⟩ := Language.mem_mul.1 hmul
    obtain ⟨words, rfl, hwords⟩ := Language.mem_kstar_iff_exists_nonempty.1 hys
    by_cases hne : w = []
    · -- An empty word leaves the first round to the words that follow.
      subst hne
      cases words with
      | nil =>
          refine .only ((ha _ _).2 ⟨[], hw, rest, hafter, rfl⟩) ?_
          simp only [List.flatten_nil, List.append_nil, List.nil_append, Place.after_beyond]
            at hafter ⊢
          rw [hafter]
          exact Nat.lt_irrefl _
      | cons v words =>
          have hloop := loop_of_flatten ha hwords hafter
          exact hloop
    · exact loop_of_flatten ha (List.forall_mem_cons.2 ⟨⟨hw, hne⟩, hwords⟩) hafter

/-- A star takes any number of words, also empty ones. -/
theorem star_spells (ha : a.Spells L) : (star a).Spells L∗ := by
  intro p q
  -- The star is nothing, or a loop.
  rw [← Language.one_add_self_mul_kstar_eq_kstar]
  simp only [Language.mem_add, or_and_right, exists_or]
  exact or_congr (empty_spells p q) (loop_iff ha)

/-- A plus takes a word and then any number of words. -/
theorem plus_spells (ha : a.Spells L) : (plus a).Spells (L * L∗) := by
  intro p q
  rw [← loop_iff ha]
  constructor
  · rintro ⟨r, rfl, hloop⟩
    exact hloop
  · intro hloop
    exact ⟨p, rfl, hloop⟩

/-- The words of any number of characters of a set. -/
theorem mem_kstar_letters {set : CharSet} {xs : List Char} :
    xs ∈ (letters set)∗ ↔ ∀ c ∈ xs, set.contains c = true := by
  constructor
  · intro h c hc
    obtain ⟨words, rfl, hwords⟩ := Language.mem_kstar.1 h
    obtain ⟨w, hw, hcw⟩ := List.mem_flatten.1 hc
    obtain ⟨d, hd, rfl⟩ := hwords w hw
    rwa [List.mem_singleton.1 hcw]
  · intro h
    induction xs with
    | nil => exact Language.nil_mem_kstar _
    | cons c xs ih =>
        obtain ⟨hc, hxs⟩ := List.forall_mem_cons.1 h
        have hword : [c] ++ xs ∈ (letters set)∗ := append_mem_kstar ⟨c, hc, rfl⟩ (ih hxs)
        exact hword

/-- A character of a set and then any number are one or more. -/
theorem letters_mul_kstar (set : CharSet) : letters set * (letters set)∗ = runs set := by
  ext xs
  rw [Language.mem_mul]
  constructor
  · rintro ⟨_, ⟨c, hc, rfl⟩, xs, hxs, rfl⟩
    exact ⟨List.cons_ne_nil _ _, List.forall_mem_cons.2 ⟨hc, mem_kstar_letters.1 hxs⟩⟩
  · rintro ⟨hne, hset⟩
    obtain ⟨c, cs, rfl⟩ := List.exists_cons_of_ne_nil hne
    obtain ⟨hc, hcs⟩ := List.forall_mem_cons.1 hset
    exact ⟨[c], ⟨c, hc, rfl⟩, cs, mem_kstar_letters.2 hcs, rfl⟩

/-- At least one character of a set. -/
theorem plus_one_spells (set : CharSet) : (plus (.one set)).Spells (runs set) :=
  letters_mul_kstar set ▸ plus_spells (one_spells set)

/-! ### The end of the text. -/

/-- The pattern leads to the end of the text, exactly from where a word of the
language is left. -/
def Finishes (pattern : Pattern) (L : Language Char) : Prop :=
  ∀ p q, pattern.Matches p q ↔ p.after ∈ L ∧ p.beyond p.after [] = q

/-- The end of the text takes nothing and is at the end. -/
theorem finish_finishes : Finishes .finish 1 := by
  intro p q
  rw [Language.mem_one]
  refine and_congr_right fun hafter => ?_
  have hend : p.beyond [] [] = p := hafter ▸ p.beyond_nil
  rw [hafter, hend]

/-- A sequence finishes if its second part does. -/
theorem seq_finishes (ha : a.Spells L) (hb : b.Finishes M) :
    (Pattern.seq a b).Finishes (L * M) := by
  intro p q
  rw [seq_matches_iff ha]
  constructor
  · rintro ⟨xs, hxs, rest, hafter, hmatches⟩
    obtain ⟨hrest, rfl⟩ := (hb _ _).1 hmatches
    rw [hafter, Place.after_beyond, Place.beyond_beyond]
    exact ⟨Language.append_mem_mul hxs hrest, rfl⟩
  · rintro ⟨hxys, rfl⟩
    obtain ⟨xs, hxs, ys, hys, hafter⟩ := Language.mem_mul.1 hxys
    refine ⟨xs, hxs, ys, hafter.symm, (hb _ _).2 ⟨hys, ?_⟩⟩
    rw [Place.after_beyond, Place.beyond_beyond, hafter]

/-- A pattern leads somewhere if what comes next begins with a word of it. -/
theorem exists_matches_iff (ha : a.Spells L) :
    (∃ q, a.Matches p q) ↔ ∃ xs ∈ L, ∃ rest, p.after = xs ++ rest := by
  constructor
  · rintro ⟨q, hq⟩
    obtain ⟨xs, hxs, rest, hafter, _⟩ := (ha p q).1 hq
    exact ⟨xs, hxs, rest, hafter⟩
  · rintro ⟨xs, hxs, rest, hafter⟩
    exact ⟨_, (ha p _).2 ⟨xs, hxs, rest, hafter, rfl⟩⟩

/-- A pattern that finishes leads somewhere if what comes next is a word of it. -/
theorem exists_matches_iff_of_finishes (ha : a.Finishes L) :
    (∃ q, a.Matches p q) ↔ p.after ∈ L :=
  ⟨fun ⟨q, hq⟩ => ((ha p q).1 hq).1, fun h => ⟨_, (ha p _).2 ⟨h, rfl⟩⟩⟩

/-- A group, and what leads from there to the end of the text. -/
theorem group_seq_matches_iff {index : Nat} (ha : a.Spells L) (hb : b.Finishes M) :
    (Pattern.seq (.group index a) b).Matches p q ↔ ∃ xs ∈ L, ∃ rest ∈ M, p.after = xs ++ rest ∧
      { p.beyond p.after [] with groups := (index, xs) :: p.groups } = q := by
  constructor
  · rintro ⟨r, hgroup, hmatches⟩
    obtain ⟨xs, hxs, rest, hafter, rfl⟩ := (group_matches_iff ha).1 hgroup
    obtain ⟨hrest, rfl⟩ := (hb _ _).1 hmatches
    exact ⟨xs, hxs, rest, hrest, hafter, by simp [hafter, Place.beyond]⟩
  · rintro ⟨xs, hxs, rest, hrest, hafter, rfl⟩
    refine ⟨_, (group_matches_iff ha).2 ⟨xs, hxs, rest, hafter, rfl⟩, (hb _ _).2 ⟨hrest, ?_⟩⟩
    simp [hafter, Place.beyond]

end Spells

end Pattern

end ObjcBindings.Text
