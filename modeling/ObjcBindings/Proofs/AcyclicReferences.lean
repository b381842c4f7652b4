/-
  ObjcBindings.Proofs.AcyclicReferences
  ────────────────────────────────
  **TYPEDEFS AND ENUMS THAT ARE NOT MADE FROM THEMSELVES.**

  A reference to a typedef or enum stands for a type, and is made from all that
  occurs in that type.  Records are leaves of this graph: what their fields
  refer to is no part of them.

      StandsFor    — the type that a reference stands for
      MadeFrom     — what occurs in the type that a reference stands for
      Acyclic      — no reference is made from itself

  Main results:
    • `not_transGen_inside` — then no examination of a type comes back to it,
    • `acyclic_of_rank` — a numbering that falls along all references shows
      that a table is acyclic.
-/
import ObjcBindings.Proofs.Crossing
import ObjcBindings.Proofs.ScopeContents
import ObjcBindings.Proofs.TableAgreement

namespace ObjcBindings

open Relation (ReflTransGen TransGen)

/-! ## §1. The graph. -/

/-- `t'` is `t`, or it occurs in it. -/
def TypeExpr.OccursIn (t' t : TypeExpr) : Prop :=
  ReflTransGen (fun a b : TypeExpr => a ∈ b.inner) t' t

namespace Table

/-- The type that a reference to a typedef or enum stands for. -/
inductive StandsFor (table : Table) : TypeExpr → TypeExpr → Prop where
  | typedef {name : String} {usr : Usr} {d : Decl} {type : TypeExpr}
      (found : table.find usr = .ok d) (kind : d.kind = .typedef type) :
      StandsFor table (.typedef name usr) type
  | enum {usr : Usr} {d : Decl} {type : TypeExpr} {isClosed : Bool} {enumerators : List Decl}
      (found : table.find usr = .ok d) (kind : d.kind = .enum (some type) isClosed enumerators) :
      StandsFor table (.enum usr) type

/-- `t'` occurs in the type that `t` stands for. -/
def MadeFrom (table : Table) (t' t : TypeExpr) : Prop :=
  ∃ type, table.StandsFor t type ∧ t'.OccursIn type

/-- No typedef or enum is made from itself. -/
def Acyclic (table : Table) : Prop :=
  ∀ t, ¬ TransGen table.MadeFrom t t

variable {table : Table} {t : TypeExpr}

/-- What occurs in a part of a type is part of what the type is made from. -/
theorem madeFrom_of_inner {a b : TypeExpr} (ha : a ∈ b.inner) (h : TransGen table.MadeFrom b t) :
    TransGen table.MadeFrom a t := by
  obtain ⟨c, ⟨type, hstands, hoccurs⟩, hc⟩ := TransGen.head'_iff.1 h
  exact TransGen.head' ⟨type, hstands, hoccurs.head ha⟩ hc

end Table

/-! ## §2. Examinations. -/

namespace Scope

variable {s : Scope} {t t' type : TypeExpr}

/-- An examination goes on inside a type, or with what a reference stands
for. -/
theorem Inside.cases (h : s.Inside t' t) : t' ∈ t.inner ∨ s.table.StandsFor t t' := by
  -- Behind a pointer the fields of a record are not examined.
  obtain ⟨use', hneeded⟩ := h .pointee
  cases hneeded with
  | typedef found _ =>
      obtain ⟨hfind, hkind⟩ := typedef_eq_ok_iff.1 found
      exact .inr (.typedef (Table.find_eq_ok_iff.2 hfind) hkind)
  | enum found =>
      obtain ⟨hfind, _, hkind⟩ := enum_eq_ok_iff.1 found
      exact .inr (.enum (Table.find_eq_ok_iff.2 hfind) hkind)
  | wrapped | pointer _ | decayed | array => exact .inl (List.mem_singleton_self _)

/-- All that the examination of a reference meets is what the reference is made
from. -/
theorem madeFrom_of_inside (ht : t.inner = []) (h : TransGen s.Inside t' t) :
    TransGen s.table.MadeFrom t' t := by
  -- The induction starts at the reference and goes down.
  induction h using TransGen.head_induction_on with
  | single step =>
      rcases step.cases with hinner | hstands
      · rw [ht] at hinner
        cases hinner
      · exact .single ⟨_, hstands, .refl⟩
  | head step _ ih =>
      rcases step.cases with hinner | hstands
      · exact Table.madeFrom_of_inner hinner ih
      · exact .head ⟨_, hstands, .refl⟩ ih

/-- **No examination of a typedef or enum comes back to it.** -/
theorem not_transGen_inside (hacyclic : s.table.Acyclic) (ht : t.inner = []) :
    ¬ TransGen s.Inside t t :=
  fun h => hacyclic t (madeFrom_of_inside ht h)

end Scope

/-! ## §3. Tables that are acyclic. -/

/-- The type that a typedef or enum is declared as. -/
def Decl.underlying? (d : Decl) : Option TypeExpr :=
  match d.kind with
  | .typedef type => some type
  | .enum type _ _ => type
  | _ => none

namespace Table

variable {table : Table} {t t' type : TypeExpr}

theorem mem_mentioned_of_occursIn {usr : Usr} (h : t'.OccursIn t) (husr : usr ∈ t'.mentioned) :
    usr ∈ t.mentioned := by
  induction h with
  | refl => exact husr
  | tail _ hinner ih => exact TypeExpr.mem_mentioned_of_inner hinner ih

/-- A reference stands for the type that some declaration of its USR is
declared as. -/
theorem StandsFor.declared (h : table.StandsFor t type) :
    ∃ d ∈ table.definitions ++ table.stubs, d.underlying? = some type ∧ t.mentioned = [d.usr] := by
  cases h with
  | typedef found kind =>
      obtain rfl := usr_of_find? (find_eq_ok_iff.1 found)
      exact ⟨_, mem_of_find found, by rw [Decl.underlying?, kind], rfl⟩
  | enum found kind =>
      obtain rfl := usr_of_find? (find_eq_ok_iff.1 found)
      exact ⟨_, mem_of_find found, by rw [Decl.underlying?, kind], rfl⟩

/-- The numbers of the USRs fall along all references. -/
def Falls (table : Table) (rank : Usr → Nat) : Prop :=
  ∀ d ∈ table.definitions ++ table.stubs, ∀ type ∈ d.underlying?,
    ∀ usr ∈ type.mentioned, rank usr < rank d.usr

variable {rank : Usr → Nat}

theorem MadeFrom.rank_lt (hrank : table.Falls rank) (h : table.MadeFrom t' t) {usr' : Usr}
    (husr' : usr' ∈ t'.mentioned) : ∃ usr ∈ t.mentioned, rank usr' < rank usr := by
  obtain ⟨type, hstands, hoccurs⟩ := h
  obtain ⟨d, hd, htype, hmentioned⟩ := hstands.declared
  refine ⟨d.usr, by rw [hmentioned]; exact List.mem_singleton_self _, ?_⟩
  exact hrank d hd type htype usr' (mem_mentioned_of_occursIn hoccurs husr')

theorem rank_lt_of_transGen (hrank : table.Falls rank) (h : TransGen table.MadeFrom t' t) :
    ∀ usr' ∈ t'.mentioned, ∃ usr ∈ t.mentioned, rank usr' < rank usr := by
  induction h with
  | single hmade => exact fun usr' husr' => hmade.rank_lt hrank husr'
  | tail _ hmade ih =>
      intro usr' husr'
      obtain ⟨usr₁, husr₁, hlt₁⟩ := ih usr' husr'
      obtain ⟨usr, husr, hlt⟩ := hmade.rank_lt hrank husr₁
      exact ⟨usr, husr, hlt₁.trans hlt⟩

/-- **A numbering that falls along all references** shows that a table is
acyclic. -/
theorem acyclic_of_rank (hrank : table.Falls rank) : table.Acyclic := by
  intro t hcircle
  obtain ⟨_, _, ⟨type, hstands, _⟩⟩ := TransGen.tail'_iff.1 hcircle
  -- A reference mentions one USR, whose number would be lower than itself.
  obtain ⟨d, _, _, hmentioned⟩ := hstands.declared
  have hmem : d.usr ∈ t.mentioned := by
    rw [hmentioned]
    exact List.mem_singleton_self _
  obtain ⟨usr, husr, hlt⟩ := rank_lt_of_transGen hrank hcircle d.usr hmem
  rw [hmentioned, List.mem_singleton] at husr
  rw [husr] at hlt
  exact lt_irrefl _ hlt

end Table

end ObjcBindings
