/-
  ObjcBindings.Interop.Fitness
  ────────────────────────────────
  **WHICH TYPES CAN CROSS A MESSAGE SEND.**

  A method is bound only if its result and parameters can be written in the
  raw layer.  A record crosses by value if all its fields do; behind a pointer
  any record but a union will do.

  Answers about records are remembered.  While a record is being examined its
  answer is provisionally no, so a record that holds itself by value does not
  cross; a failure leaves the provisional answer behind.

      Use        — a type is used as a value or behind a pointer
      Memory     — the answers about records so far
      fits       — can the type be used so
-/
import ObjcBindings.Interop.Primitive
import ObjcBindings.Interop.Scope

namespace ObjcBindings

open Text

/-! ## §1. Answers about records. -/

/-- How a type is used. -/
inductive Use where
  | value
  /-- Behind a pointer. -/
  | pointee
  deriving DecidableEq, Repr

/-- Answers about records, the latest first. -/
abbrev Memory := List (Usr × Bool)

/-- An answer or a failure, and what is remembered afterwards. -/
abbrev Verdict := Except Failure Bool × Memory

/-- The largest number of arguments of a message send. -/
def maxArguments : Nat := 12

/-- A primitive type that has a Rust spelling and is not `Void`. -/
def primitiveFits (name : String) : Except Failure Bool :=
  match Primitive.ofName name with
  | .error e => .error e
  | .ok p => .ok (p ≠ .void && p.rustName?.isSome)

/-- An object type. -/
def TypeExpr.isObject : TypeExpr → Bool
  | .object _ _ _ _ => true
  | _ => false

/-- The types of a signature that have to cross: all parameters, and the
result unless it is `void`. -/
def Method.crossing (m : Method) : List TypeExpr :=
  (if m.result.stripWrappers.isVoid then [] else [m.result]) ++ m.params.map Param.type

namespace Scope

/-! ## §2. Types. -/

mutual

/-- The type can be used so.  `room` bounds the records that are examined
inside each other, `path` holds the typedefs and enums that are being
followed since the innermost of them. -/
def fits (s : Scope) (room : Nat) (path : List Usr) (use : Use) (t : TypeExpr) (m : Memory) :
    Verdict :=
  match t with
  | .wrapped _ inner => s.fits room path use inner m
  | .builtin name =>
      if use = .pointee ∧ name = "Void" then (.ok true, m) else (primitiveFits name, m)
  | .typedef _ usr =>
      match _h : s.typedef usr with
      | .error e => (.error e, m)
      | .ok (d, type) =>
          if (Idiom.detect? d.name type).isSome then (.ok true, m)
          else if _hp : usr ∈ path then (.error (.circular usr), m)
          else s.fits room (usr :: path) use type m
  | .pointer pointee =>
      if (TypeExpr.pointer pointee).isSelShape then (.ok true, m)
      else s.fits room path .pointee pointee m
  | .decayed pointee => s.fits room path .pointee pointee m
  | .objectPointer pointee => (.ok pointee.stripWrappers.isObject, m)
  | .record usr =>
      if use = .pointee then
        match s.record usr with
        | .error e => (.error e, m)
        | .ok (_, _, tag) => (.ok (tag ≠ .union), m)
      else match m.lookup usr with
        | some known => (.ok known, m)
        | none =>
            match room with
            | 0 => (.ok false, m)
            | room + 1 => s.examine room usr m
  | .enum usr =>
      match _h : s.enum usr with
      | .error e => (.error e, m)
      | .ok (_, some integerType, _ :: _) =>
          if _hp : usr ∈ path then (.error (.circular usr), m)
          else s.fits room (usr :: path) .value integerType m
      | .ok _ => (.ok false, m)
  | .constantArray element _ => s.fits room path .value element m
  | _ => (.ok false, m)
termination_by (room, NameSet.missing s.table.usrs path, sizeOf t)
decreasing_by
  all_goals first
    | exact Prod.Lex.right _ (Prod.Lex.left _ _
        (NameSet.missing_cons_lt (mem_usrs_of_typedef _h) _hp))
    | exact Prod.Lex.right _ (Prod.Lex.left _ _
        (NameSet.missing_cons_lt (mem_usrs_of_enum _h) _hp))
    | exact Prod.Lex.left _ _ (Nat.lt_succ_self _)
    | (apply Prod.Lex.right
       apply Prod.Lex.right
       decreasing_tactic)

/-- Examine a record about which nothing is known: it is no union, has fields,
and all of them are plain fields of types that cross by value. -/
def examine (s : Scope) (room : Nat) (usr : Usr) (m : Memory) : Verdict :=
  let m := (usr, false) :: m
  match s.record usr with
  | .error e => (.error e, m)
  | .ok (_, fields, tag) =>
      if tag = .union || fields.isEmpty then (.ok false, (usr, false) :: m)
      else match s.fieldsFit room fields m with
        | (.error e, m') => (.error e, m')
        | (.ok answer, m') => (.ok answer, (usr, answer) :: m')
termination_by (room, s.table.usrs.length + 2, 0)
decreasing_by
  exact Prod.Lex.right _ (Prod.Lex.left _ _ (Nat.lt_succ_self _))

/-- All members of a record are plain fields of types that cross by value. -/
def fieldsFit (s : Scope) (room : Nat) (fields : List Decl) (m : Memory) : Verdict :=
  match fields with
  | [] => (.ok true, m)
  | f :: fs =>
      match f.kind with
      | .field type none =>
          match s.fits room [] .value type m with
          | (.ok true, m') => s.fieldsFit room fs m'
          | verdict => verdict
      | _ => (.ok false, m)
termination_by (room, s.table.usrs.length + 1, sizeOf fields)
decreasing_by
  · exact Prod.Lex.right _ (Prod.Lex.left _ _
      (Nat.lt_succ_of_le (NameSet.missing_le_length _ _)))
  · apply Prod.Lex.right
    apply Prod.Lex.right
    decreasing_tactic

end

/-- As many records as the table has can be examined inside each other, and
one that it lacks. -/
def room (s : Scope) : Nat := s.table.usrs.length + 1

/-- Values of the type can cross a message send. -/
def typeFits (s : Scope) (t : TypeExpr) (m : Memory) : Verdict :=
  s.fits s.room [] .value t m

/-- Pointers to the type can cross a message send. -/
def pointeeFits (s : Scope) (t : TypeExpr) (m : Memory) : Verdict :=
  s.fits s.room [] .pointee t m

/-- The record can cross a message send by value. -/
def recordFits (s : Scope) (usr : Usr) (m : Memory) : Verdict :=
  s.fits s.room [] .value (.record usr) m

/-- The typedef is written: its type can be used as a value or behind a
pointer. -/
def typedefFits (s : Scope) (usr : Usr) (m : Memory) : Verdict :=
  match s.typedef usr with
  | .error e => (.error e, m)
  | .ok (_, type) =>
      match s.typeFits type m with
      | (.ok false, m') => s.pointeeFits type m'
      | verdict => verdict

/-! ## §3. Methods. -/

/-- All the types can cross a message send. -/
def typesFit (s : Scope) : List TypeExpr → Memory → Verdict
  | [], m => (.ok true, m)
  | t :: ts, m =>
      match s.typeFits t m with
      | (.ok true, m') => s.typesFit ts m'
      | verdict => verdict

/-- The method can be bound. -/
def methodFits (s : Scope) (method : Method) (m : Memory) : Verdict :=
  if method.isVariadic || method.params.length > maxArguments then (.ok false, m)
  else s.typesFit method.crossing m

end Scope

end ObjcBindings
