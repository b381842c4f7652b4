/-
  ObjcBindings.Symbol.Reach
  ────────────────────────────────
  **THE DECLARATIONS THAT OBJECTIVE-C SIGNATURES USE.**

  Starting from the method signatures of every defined container, references
  are followed through the table:

      a typedef    leads to the type it names
      a record     leads to the types of its fields
      an enum      leads to its integer type
      an object    leads to its interface and the superclasses above it

  Every USR met is recorded by the kind of its declaration.  A reference that
  was recorded before is not followed again, so the search ends: each step
  either records a USR of the table or descends into a smaller type.
-/
import ObjcBindings.Symbol.Table
import ObjcBindings.Text.NameSet

namespace ObjcBindings

open Text (NameSet)

/-! ## §1. What is recorded. -/

/-- The USRs in use, by the kind of their declarations. -/
structure Used where
  typedefs : NameSet := []
  structs : NameSet := []
  enums : NameSet := []
  unions : NameSet := []
  /-- Interfaces, protocols and categories. -/
  objc : NameSet := []
  deriving DecidableEq, Repr, Inhabited

namespace Used

/-- The USR is in use. -/
def contains (used : Used) (usr : Usr) : Bool :=
  usr ∈ used.typedefs || usr ∈ used.structs || usr ∈ used.enums || usr ∈ used.unions
    || usr ∈ used.objc

/-- The number of recorded USRs. -/
def size (used : Used) : Nat :=
  used.typedefs.length + used.structs.length + used.enums.length + used.unions.length
    + used.objc.length

/-- How many USRs of the table could still be recorded. -/
def room (all : List Usr) (used : Used) : Nat :=
  NameSet.missing all used.typedefs + NameSet.missing all used.structs
    + NameSet.missing all used.enums + NameSet.missing all used.unions
    + NameSet.missing all used.objc

end Used

/-! ## §2. What is still to be followed. -/

/-- A reference that is still to be followed. -/
inductive Pending where
  | type (t : TypeExpr)
  | interface (usr : Usr)
  deriving DecidableEq, Repr

namespace Pending

/-- The work a reference stands for before it reaches the table. -/
noncomputable def weight : Pending → Nat
  | .type t => sizeOf t
  | .interface _ => 1

/-- The work of a list of references. -/
noncomputable def total : List Pending → Nat
  | [] => 0
  | p :: ps => p.weight + total ps

@[simp] theorem total_cons (p : Pending) (ps : List Pending) :
    total (p :: ps) = p.weight + total ps := rfl

@[simp] theorem total_append (ps qs : List Pending) :
    total (ps ++ qs) = total ps + total qs := by
  induction ps with
  | nil => simp [total]
  | cons p ps ih => simp [ih, Nat.add_assoc]

end Pending

/-- The references directly inside a type, in the order they are followed. -/
def TypeExpr.parts : TypeExpr → List Pending
  | .pointer t | .blockPointer t | .decayed t | .objectPointer t | .wrapped _ t
  | .functionNoProto t | .constantArray t _ | .incompleteArray t => [.type t]
  | .object base interface _ args =>
      args.map .type ++ base.toList.map .type ++ interface.toList.map .interface
  | .function params result _ => .type result :: params.map fun p => .type p.type
  | _ => []

theorem Pending.total_map_type (ts : List TypeExpr) :
    Pending.total (ts.map .type) ≤ sizeOf ts := by
  induction ts with
  | nil => simp [Pending.total]
  | cons t ts ih => simp [Pending.weight] at ih ⊢; omega

theorem Pending.total_map_slot (ps : List (Slot TypeExpr)) :
    Pending.total (ps.map fun p => .type p.type) ≤ sizeOf ps := by
  induction ps with
  | nil => simp [Pending.total]
  | cons p ps ih =>
    cases p
    simp [Pending.weight] at ih ⊢
    omega

/-- The references inside a type are less work than the type. -/
theorem TypeExpr.total_parts_lt (t : TypeExpr) : Pending.total t.parts < sizeOf t := by
  cases t
  case object base interface protocols args =>
    have h := Pending.total_map_type args
    cases base <;> cases interface <;>
      simp [TypeExpr.parts, Pending.total, Pending.weight] at h ⊢ <;> omega
  case function params result isVariadic =>
    have h := Pending.total_map_slot params
    simp [TypeExpr.parts, Pending.weight] at h ⊢
    omega
  all_goals simp [TypeExpr.parts, Pending.total, Pending.weight]; try omega

/-- Every reference is some work. -/
theorem Pending.weight_pos (p : Pending) : 0 < p.weight := by
  cases p with
  | interface usr => simp [Pending.weight]
  | type t => exact Nat.lt_of_le_of_lt (Nat.zero_le _) t.total_parts_lt

/-! ## §3. Following references. -/

/-- The types of the fields of a record, in order. -/
def fieldTypes (fields : List Decl) : List TypeExpr :=
  fields.filterMap fun f =>
    match f.kind with
    | .field type _ => some type
    | _ => none

/-- Follow references until none is left.  `context` names the method they
come from. -/
def Table.follow (table : Table) (context : String) (todo : List Pending) (used : Used) :
    Except Failure Used :=
  match todo with
  | [] => .ok used
  | .interface usr :: rest =>
      if usr ∈ used.objc then table.follow context rest used
      else match _h : table.find usr with
        | .error e => .error e
        | .ok d =>
            match d.kind with
            | .interface _ _ superclass _ =>
                table.follow context (superclass.toList.map .interface ++ rest)
                  { used with objc := NameSet.add usr used.objc }
            | _ => .error (d.unexpected "ObjCInterface")
  | .type (.typedef _ usr) :: rest =>
      if usr ∈ used.typedefs then table.follow context rest used
      else match _h : table.find usr with
        | .error e => .error e
        | .ok d =>
            match d.kind with
            | .typedef type =>
                table.follow context (.type type :: rest)
                  { used with typedefs := NameSet.add usr used.typedefs }
            | _ => .error (d.unexpected "Typedef")
  | .type (.record usr) :: rest =>
      match _h : table.find usr with
      | .error e => .error e
      | .ok d =>
          match d.kind with
          | .record fields .union =>
              if usr ∈ used.unions then table.follow context rest used
              else table.follow context ((fieldTypes fields).map .type ++ rest)
                { used with unions := NameSet.add usr used.unions }
          | .record fields _ =>
              if usr ∈ used.structs then table.follow context rest used
              else table.follow context ((fieldTypes fields).map .type ++ rest)
                { used with structs := NameSet.add usr used.structs }
          | _ => .error (d.unexpected "Record")
  | .type (.enum usr) :: rest =>
      if usr ∈ used.enums then table.follow context rest used
      else match _h : table.find usr with
        | .error e => .error e
        | .ok d =>
            match d.kind with
            | .enum integerType _ _ =>
                table.follow context (integerType.toList.map .type ++ rest)
                  { used with enums := NameSet.add usr used.enums }
            | _ => .error (d.unexpected "Enum")
  | .type (.vector _ _) :: _ => .error (.unsupportedType "Vector" context)
  | .type (.extVector _ _) :: _ => .error (.unsupportedType "ExtVector" context)
  | .type .unknown :: _ => .error (.unsupportedType "Unknown" context)
  | .type t :: rest => table.follow context (t.parts ++ rest) used
termination_by (used.room table.usrs, Pending.total todo)
decreasing_by
  all_goals first
    | (apply Prod.Lex.left
       have hm := NameSet.missing_add_lt (Table.mem_usrs_of_find _h) (by assumption)
       simp only [Used.room]
       omega)
    | (apply Prod.Lex.right
       simp only [Pending.total_append, Pending.total_cons, Pending.weight]
       exact Nat.add_lt_add_right (TypeExpr.total_parts_lt _) _)
    | (apply Prod.Lex.right
       simp only [Pending.total_cons]
       exact Nat.lt_add_of_pos_left (Pending.weight_pos _))

/-! ## §4. Signatures. -/

/-- The types of a signature: the result, then the parameters. -/
def Method.types (m : Method) : List TypeExpr :=
  m.result :: m.params.map Param.type

/-- Follow the signatures of a container's methods. -/
def Table.followMethods (table : Table) (owner : String) :
    List Method → Used → Except Failure Used
  | [], used => .ok used
  | m :: ms, used =>
      match table.follow (owner ++ " " ++ m.selector) (m.types.map .type) used with
      | .error e => .error e
      | .ok used' => table.followMethods owner ms used'

/-- Record containers and follow their methods. -/
def Table.followContainers (table : Table) : List Decl → Used → Except Failure Used
  | [], used => .ok used
  | d :: ds, used =>
      let used := { used with objc := NameSet.add d.usr used.objc }
      match table.followMethods d.displayName d.methods used with
      | .error e => .error e
      | .ok used' => table.followContainers ds used'

/-- Everything that the defined containers of the table use. -/
def Table.used (table : Table) : Except Failure Used :=
  table.followContainers (table.definitions.filter Decl.isContainer) {}

end ObjcBindings
