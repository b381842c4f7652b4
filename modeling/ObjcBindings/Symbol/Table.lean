/-
  ObjcBindings.Symbol.Table
  ────────────────────────────────
  **THE TABLE OF DECLARATIONS.**

  The table keeps the definitions, one for each USR in the order they were
  met, and the stubs: declarations that only announce a definition.  Every
  look-up is a search through these two lists.

      register          — add one declaration
      find              — the definition of a USR, else its first stub
      interfaceNamed?   — the last definition of a name, else its first stub
-/
import ObjcBindings.Failure
import ObjcBindings.Symbol.Suggestion

namespace ObjcBindings

/-! ## §1. Stubs and repetitions. -/

/-- A declaration that only announces a definition: the front end says so, or
it is a record without fields or an enum without enumerators. -/
def Decl.isStub (d : Decl) : Bool :=
  d.isForward || match d.kind with
    | .record fields _ => fields.isEmpty
    | .enum _ _ enumerators => enumerators.isEmpty
    | _ => false

/-- `new` repeats the definition `old`: both are functions or both variables,
or they are typedefs of one type, or they agree in name and payload. -/
def Decl.isRepeatedBy (old new : Decl) : Bool :=
  match old.kind, new.kind with
  | .function _ _ _ _, .function _ _ _ _ => true
  | .var _, .var _ => true
  | .typedef a, .typedef b => a == b
  | a, b => old.name == new.name && a == b

/-! ## §2. The table. -/

/-- Definitions and stubs in the order they were registered. -/
structure Table where
  definitions : List Decl := []
  stubs : List Decl := []
  deriving Inhabited

namespace Table

/-- The definition of a USR. -/
def definition? (t : Table) (usr : Usr) : Option Decl :=
  t.definitions.find? (·.usr == usr)

/-- The definition of a USR, else its first stub. -/
def find? (t : Table) (usr : Usr) : Option Decl :=
  (t.definition? usr).or (t.stubs.find? (·.usr == usr))

/-- The USR has a definition. -/
def isDefined (t : Table) (usr : Usr) : Bool :=
  (t.definition? usr).isSome

/-- Every USR of the table. -/
def usrs (t : Table) : List Usr :=
  (t.definitions ++ t.stubs).map Decl.usr

/-- The number of USRs that have a stub. -/
def stubCount (t : Table) : Nat :=
  (t.stubs.map Decl.usr).eraseDups.length

/-- Add a declaration.  A stub is always accepted; a second definition of a
USR has to repeat the first, and changes nothing. -/
def register (t : Table) (d : Decl) : Except Failure Table :=
  if d.isStub then .ok { t with stubs := t.stubs ++ [d] }
  else match t.definition? d.usr with
    | none => .ok { t with definitions := t.definitions ++ [d] }
    | some old =>
        if old.isRepeatedBy d then .ok t
        else .error (.duplicateDeclaration d.usr old.kindName d.kindName)

/-- Add declarations in order, up to the first that is refused. -/
def registerAll (t : Table) : List Decl → Except Failure Table
  | [] => .ok t
  | d :: ds =>
      match t.register d with
      | .error e => .error e
      | .ok t' => registerAll t' ds

/-- The table of a unit. -/
def ofUnit (unit : TranslationUnit) : Except Failure Table :=
  registerAll {} unit.children

/-! ## §3. Look-up with suggestions. -/

/-- The declaration of a USR. -/
def find (t : Table) (usr : Usr) : Except Failure Decl :=
  match t.find? usr with
  | some d => .ok d
  | none => .error (.declarationNotFound usr (Suggestion.best? usr t.usrs 3))

/-- The last definition with a property, else the first stub with it. -/
def named? (t : Table) (test : Decl → Bool) : Option Decl :=
  (t.definitions.reverse.find? test).or (t.stubs.find? test)

/-- The interface of a name. -/
def interfaceNamed? (t : Table) (name : String) : Option Decl :=
  t.named? fun d => d.isInterface && d.name == name

/-- The protocol of a name. -/
def protocolNamed? (t : Table) (name : String) : Option Decl :=
  t.named? fun d => d.isProtocol && d.name == name

/-- The names of the declarations with a property. -/
def namesOf (t : Table) (test : Decl → Bool) : List String :=
  ((t.definitions ++ t.stubs).filter test).map Decl.name

/-- The interface of a name that has to exist. -/
def interfaceNamed (t : Table) (name : String) : Except Failure Decl :=
  match t.interfaceNamed? name with
  | some d => .ok d
  | none =>
      .error (.nameNotFound .interface name
        (Suggestion.best? name (t.namesOf Decl.isInterface) 3))

/-- The protocol of a name that has to exist. -/
def protocolNamed (t : Table) (name : String) : Except Failure Decl :=
  match t.protocolNamed? name with
  | some d => .ok d
  | none =>
      .error (.nameNotFound .protocol name
        (Suggestion.best? name (t.namesOf Decl.isProtocol) 3))

/-! ## §4. Facts about look-up. -/

theorem mem_usrs_of_find? {t : Table} {usr : Usr} {d : Decl} (h : t.find? usr = some d) :
    usr ∈ t.usrs := by
  simp only [find?, definition?, Option.or_eq_some_iff] at h
  simp only [usrs, List.mem_map, List.mem_append]
  rcases h with h | ⟨_, h⟩
  · exact ⟨d, .inl (List.mem_of_find?_eq_some h), by simpa using List.find?_some h⟩
  · exact ⟨d, .inr (List.mem_of_find?_eq_some h), by simpa using List.find?_some h⟩

theorem find_eq_ok_iff {t : Table} {usr : Usr} {d : Decl} :
    t.find usr = .ok d ↔ t.find? usr = some d := by
  simp only [find]
  split <;> simp_all

theorem mem_usrs_of_find {t : Table} {usr : Usr} {d : Decl} (h : t.find usr = .ok d) :
    usr ∈ t.usrs :=
  mem_usrs_of_find? (find_eq_ok_iff.1 h)

end Table

end ObjcBindings
