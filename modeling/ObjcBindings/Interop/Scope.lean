/-
  ObjcBindings.Interop.Scope
  ────────────────────────────────
  **EVERYTHING THAT NAMES ARE LOOKED UP IN.**

  A scope holds the table of a unit, the declarations in use, the module rules
  and the names of tags.  A record or enum is written under the name of the
  first typedef that names it: the typedef's type is the tag itself, and the
  tag is anonymous or has the typedef's name up to leading underscores.  A
  typedef of that name is merged with its tag.
-/
import ObjcBindings.Header.Layout
import ObjcBindings.Interop.Idiom
import ObjcBindings.Symbol.Reach

namespace ObjcBindings

open Text

/-! ## §1. Names of tags. -/

/-- The tag that a type is, below wrappers. -/
def TypeExpr.tag? (t : TypeExpr) : Option Usr :=
  match t.stripWrappers with
  | .record usr | .enum usr => some usr
  | _ => none

/-- The tag that a declaration names, if it is a typedef that names one. -/
def Table.namedTag? (table : Table) (d : Decl) : Option Usr :=
  match d.kind with
  | .typedef type =>
      match type.tag? with
      | none => none
      | some usr =>
          match table.find? usr with
          | none => none
          | some tag =>
              if Ident.isAnonymous tag.name
                  || Ident.stripUnderscores tag.name == Ident.stripUnderscores d.name
              then some usr else none
  | _ => none

/-- The tags that typedefs name, with those typedefs, in their order. -/
def Table.tagNames (table : Table) : List (Usr × Decl) :=
  table.definitions.filterMap fun d => (table.namedTag? d).map (·, d)

/-! ## §2. Scopes. -/

/-- Where the names of one unit are looked up. -/
structure Scope where
  table : Table
  used : Used
  rules : List ModuleRule
  /-- The tags that typedefs name, with those typedefs. -/
  tagNames : List (Usr × Decl)

namespace Scope

/-- The scope of a unit. -/
def ofUnit (unit : TranslationUnit) (rules : List ModuleRule) : Except Failure Scope := do
  let table ← Table.ofUnit unit
  let used ← table.used
  return ⟨table, used, rules, table.tagNames⟩

/-- The module of a declaration. -/
def moduleOf (s : Scope) (d : Decl) : Except Failure String :=
  Layout.moduleOf s.rules d

/-- The name that typedefs give a tag. -/
def canonicalName? (s : Scope) (usr : Usr) : Option String :=
  (s.tagNames.lookup usr).map Decl.name

/-- The typedef is merged with its tag. -/
def isMerged (s : Scope) (usr : Usr) : Bool :=
  s.tagNames.any fun (tag, d) => d.usr == usr && s.canonicalName? tag == some d.name

/-- The name that a record or enum is written under. -/
def tagName (s : Scope) (d : Decl) : String :=
  match s.canonicalName? d.usr with
  | some name => Ident.escape name
  | none => if Ident.isAnonymous d.name then Ident.ofUsr d.usr else Ident.escape d.name

/-! ## §3. Declarations of one kind. -/

/-- A typedef and its type. -/
def typedef (s : Scope) (usr : Usr) : Except Failure (Decl × TypeExpr) :=
  match s.table.find usr with
  | .error e => .error e
  | .ok d =>
      match d.kind with
      | .typedef type => .ok (d, type)
      | _ => .error (d.unexpected "Typedef")

/-- A record with its fields and keyword. -/
def record (s : Scope) (usr : Usr) : Except Failure (Decl × List Decl × TagKind) :=
  match s.table.find usr with
  | .error e => .error e
  | .ok d =>
      match d.kind with
      | .record fields tag => .ok (d, fields, tag)
      | _ => .error (d.unexpected "Record")

/-- An enum with its integer type and enumerators. -/
def enum (s : Scope) (usr : Usr) : Except Failure (Decl × Option TypeExpr × List Decl) :=
  match s.table.find usr with
  | .error e => .error e
  | .ok d =>
      match d.kind with
      | .enum integerType _ enumerators => .ok (d, integerType, enumerators)
      | _ => .error (d.unexpected "Enum")

/-- The definition of a USR, if it is an interface. -/
def definedInterface? (s : Scope) (usr : Usr) : Option Decl :=
  (s.table.definition? usr).filter Decl.isInterface

/-- The definition of a superclass.  There is none if only a stub announces
the class; a missing or other declaration is a failure. -/
def superclass (s : Scope) (usr : Usr) : Except Failure (Option Decl) :=
  match s.table.find usr with
  | .error e => .error e
  | .ok d =>
      if d.isInterface then .ok (s.definedInterface? usr)
      else .error (d.unexpected "ObjCInterface")

/-- The idiom that a typedef is. -/
def idiom (s : Scope) (usr : Usr) : Except Failure (Option Idiom) :=
  match s.typedef usr with
  | .error e => .error e
  | .ok (d, type) => .ok (Idiom.detect? d.name type)

theorem mem_usrs_of_typedef {s : Scope} {usr : Usr} {r : Decl × TypeExpr}
    (h : s.typedef usr = .ok r) : usr ∈ s.table.usrs := by
  simp only [typedef] at h
  split at h
  · cases h
  · next hf => exact Table.mem_usrs_of_find hf

theorem mem_usrs_of_enum {s : Scope} {usr : Usr} {r : Decl × Option TypeExpr × List Decl}
    (h : s.enum usr = .ok r) : usr ∈ s.table.usrs := by
  simp only [enum] at h
  split at h
  · cases h
  · next hf => exact Table.mem_usrs_of_find hf

end Scope

/-! ## §4. Names seen from a module. -/

/-- `name` of module `module` as it is written in module `current`. -/
def qualifyIn (module name current : String) : String :=
  if module = current then name else "super::" ++ module ++ "::" ++ name

/-- `name` of the declaration's module as it is written in `current`. -/
def Scope.qualify (s : Scope) (name : String) (d : Decl) (current : String) :
    Except Failure String :=
  match s.moduleOf d with
  | .error e => .error e
  | .ok module => .ok (qualifyIn module name current)

end ObjcBindings
