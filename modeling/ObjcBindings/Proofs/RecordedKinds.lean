/-
  ObjcBindings.Proofs.RecordedKinds
  ────────────────────────────────
  **A USR IS RECORDED ONCE, UNDER THE KIND OF ITS DECLARATION.**

  A search keeps five sets, and asks at each reference only the set that the
  reference belongs to.  That no USR gets into two of them is due to the
  table, which has one declaration to answer with for each USR:

      IsDeclared  — the USR leads to a declaration of the reference's kind
      KindsApart  — what holds of the five sets together

  Main results:
    • `isDeclared_of_used` — every recorded reference is declared of its kind,
    • `kindsApart_of_used` — so the five sets are disjoint, and their sizes add
      up to the number of USRs in use.
-/
import ObjcBindings.Proofs.Registrations
import ObjcBindings.Proofs.SuperclassChains

namespace ObjcBindings

open Text (NameSet)

/-! ## §1. Kinds of references. -/

namespace Ref

/-- The USR of a reference. -/
def usr : Ref → Usr
  | .typedef usr | .struct usr | .union usr | .enum usr | .interface usr => usr

/-- The USR leads to a declaration of the reference's kind.  Interfaces,
protocols and categories are recorded as one kind. -/
inductive IsDeclared (table : Table) : Ref → Prop where
  | typedef {usr : Usr} {d : Decl} {type : TypeExpr} (found : table.find usr = .ok d)
      (kind : d.kind = .typedef type) : IsDeclared table (.typedef usr)
  | struct {usr : Usr} {d : Decl} {fields : List Decl} {tag : TagKind}
      (found : table.find usr = .ok d) (kind : d.kind = .record fields tag)
      (tagged : tag ≠ .union) : IsDeclared table (.struct usr)
  | union {usr : Usr} {d : Decl} {fields : List Decl} (found : table.find usr = .ok d)
      (kind : d.kind = .record fields .union) : IsDeclared table (.union usr)
  | enum {usr : Usr} {d : Decl} {integerType : Option TypeExpr} {isClosed : Bool}
      {enumerators : List Decl} (found : table.find usr = .ok d)
      (kind : d.kind = .enum integerType isClosed enumerators) : IsDeclared table (.enum usr)
  | container {usr : Usr} {d : Decl} (found : table.find usr = .ok d)
      (container : d.isContainer = true) : IsDeclared table (.interface usr)

variable {table : Table} {r r' : Ref}

/-- What a reference opens is declared of its kind. -/
theorem Opens.isDeclared {ps : List Pending} (h : r.Opens table ps) : r.IsDeclared table := by
  cases h with
  | typedef found kind => exact .typedef found kind
  | struct found kind tagged => exact .struct found kind tagged
  | union found kind => exact .union found kind
  | enum found kind => exact .enum found kind
  | interface found kind => exact .container found (by rw [Decl.isContainer, kind])

/-- **The USR alone says which reference it is**: its declaration is of one
kind. -/
theorem IsDeclared.unique (h : r.IsDeclared table) (h' : r'.IsDeclared table)
    (husr : r.usr = r'.usr) : r = r' := by
  cases h <;> cases h' <;> simp_all [usr, Decl.isContainer]

end Ref

/-! ## §2. The five sets. -/

namespace Used

variable {used : Used} {table : Table}

/-- The sets of recorded USRs. -/
def sets (used : Used) : List NameSet :=
  [used.typedefs, used.structs, used.enums, used.unions, used.objc]

/-- The recorded references, set by set. -/
def refs (used : Used) : List Ref :=
  used.typedefs.map .typedef ++ used.structs.map .struct ++ used.enums.map .enum
    ++ used.unions.map .union ++ used.objc.map .interface

/-- The references are those that are recorded. -/
theorem mem_refs {r : Ref} : r ∈ used.refs ↔ used.Has r := by
  cases r <;> simp [refs, Has]

theorem map_usr_refs (used : Used) : used.refs.map Ref.usr = used.sets.flatten := by
  simp [refs, sets, Function.comp_def, Ref.usr]

/-- The size counts the members of all sets. -/
theorem size_eq_length (used : Used) : used.size = used.sets.flatten.length := by
  simp [size, sets, Nat.add_assoc]

/-- A USR is contained if it is in one of the sets. -/
theorem contains_iff_mem {usr : Usr} : used.contains usr = true ↔ usr ∈ used.sets.flatten := by
  simp [contains, sets, or_assoc]

/-- All five sets stand in ascending order. -/
structure Ascending (used : Used) : Prop extends Sorted used where
  objc : used.objc.Pairwise (· < ·)

theorem ascending_empty : Ascending {} :=
  { sorted_empty with objc := List.Pairwise.nil }

/-- Recording keeps the sets ascending. -/
theorem Ascending.record (h : used.Ascending) (r : Ref) : (used.record r).Ascending := by
  refine { h.toSorted.record r with objc := ?_ }
  cases r with
  | interface usr => exact NameSet.pairwise_add h.objc
  | typedef | struct | union | enum => exact h.objc

/-- No reference is recorded twice. -/
theorem Ascending.nodup_refs (h : used.Ascending) : used.refs.Nodup := by
  have hset : ∀ {names : NameSet}, names.Pairwise (· < ·) → names.Nodup :=
    fun hnames => hnames.imp ne_of_lt
  have htypedefs := (hset h.typedefs).map (f := Ref.typedef) fun _ _ => Ref.typedef.inj
  have hstructs := (hset h.structs).map (f := Ref.struct) fun _ _ => Ref.struct.inj
  have henums := (hset h.enums).map (f := Ref.enum) fun _ _ => Ref.enum.inj
  have hunions := (hset h.unions).map (f := Ref.union) fun _ _ => Ref.union.inj
  have hobjc := (hset h.objc).map (f := Ref.interface) fun _ _ => Ref.interface.inj
  -- References of different kinds are different anyway.
  simp only [refs, List.nodup_append, List.mem_append, List.mem_map]
  grind

/-- **No USR is recorded twice**, if every recorded reference is declared of
its kind. -/
theorem Ascending.nodup_usrs (h : used.Ascending)
    (hdeclared : ∀ r, used.Has r → r.IsDeclared table) : used.sets.flatten.Nodup := by
  rw [← map_usr_refs]
  refine h.nodup_refs.map_on fun r hr r' hr' husr => ?_
  exact (hdeclared r (mem_refs.1 hr)).unique (hdeclared r' (mem_refs.1 hr')) husr

/-- What holds of the five sets of a search through the table: they are sets
of one kind of declarations each, so no USR is in two of them, and every
defined container is in the last. -/
structure KindsApart (used : Used) (table : Table) : Prop where
  declared : ∀ r, used.Has r → r.IsDeclared table
  disjoint : used.sets.Pairwise List.Disjoint
  counted : {usr | used.contains usr = true}.encard = used.size
  seeded : ∀ d ∈ table.definitions, d.isContainer = true → d.usr ∈ used.objc

/-- The members of a list without repetitions are as many as it is long. -/
theorem encard_contains (h : used.sets.flatten.Nodup) :
    {usr | used.contains usr = true}.encard = used.size := by
  have hset : {usr | used.contains usr = true} = ↑used.sets.flatten.toFinset := by
    ext usr
    rw [Set.mem_ofPred_eq, contains_iff_mem, Finset.mem_coe, List.mem_toFinset]
  rw [hset, Set.encard_coe_eq_coe_finsetCard, List.toFinset_card_of_nodup h, size_eq_length]

end Used

/-! ## §3. The search. -/

namespace Table

variable {table : Table} {used used' : Used} {ds : List Decl}

/-- The USR of a defined container leads to the container. -/
theorem WellFormed.isDeclared_of_container (ht : table.WellFormed) {d : Decl}
    (hd : d ∈ table.containers) : (Ref.interface d.usr).IsDeclared table := by
  obtain ⟨hmem, hcontainer⟩ := List.mem_filter.1 hd
  exact .container (find_eq_ok_iff.2 (ht.find?_of_mem hmem)) hcontainer

/-- **A recorded reference is declared of its kind**: it was opened, or it is
a container whose methods were followed. -/
theorem WellFormed.isDeclared_of_used (ht : table.WellFormed) (h : table.used = .ok used)
    {r : Ref} (hr : used.Has r) : r.IsDeclared table := by
  rcases opened_of_followContainers h r hr with hnil | ⟨ps, hopens, _⟩ | ⟨d, hd, rfl⟩
  · cases r <;> simp [Used.Has] at hnil
  · exact hopens.isDeclared
  · exact ht.isDeclared_of_container hd

/-- **The five sets are apart**, whatever was registered: each leads to
declarations of its kind, and their sizes add up to the number of USRs in
use. -/
theorem kindsApart_of_used (h : (afterAll ds).used = .ok used) :
    used.KindsApart (afterAll ds) := by
  have hdeclared : ∀ r, used.Has r → r.IsDeclared (afterAll ds) :=
    fun r hr => (wellFormed_afterAll ds).isDeclared_of_used h hr
  have hascending : used.Ascending :=
    (surveys_of_followContainers h).keeps (fun _ r hused => hused.record r) Used.ascending_empty
  have hnodup := hascending.nodup_usrs hdeclared
  exact {
    declared := hdeclared
    disjoint := (List.nodup_flatten.1 hnodup).2
    counted := Used.encard_contains hnodup
    seeded := fun d hd hc => seeded_of_followContainers h d (List.mem_filter.2 ⟨hd, hc⟩) }

end Table

/-! ## §4. A small table. -/

/-- A class with a category and a protocol, which return a class that is only
announced.  A typedef is declared again as something else, and refused. -/
def shelfDecls : List Decl :=
  [{ usr := "c:Root", name := "Root", location := none, isImplicit := true
     isReferenced := false, isForward := true, kind := .interface [] [] none [] },
   .implicit "c:Shelf" "Shelf" (.interface
     [.ofMethod "put:at:" [.pointer (.record "s:Book"), .ofName "Place"] (.enum "e:Order"),
      .ofMethod "mark" [] (.record "u:Mark")] [] (some "c:Root") []),
   .implicit "k:Sorting" "Sorting" (.category "Shelf" [] []),
   .implicit "p:Keeper" "Keeper" (.protocol
     [.ofMethod "root" [] (.objectPointer (.object none (some "c:Root") [] []))] []),
   .implicit "s:Book" "Book" (.record [] .struct),
   .implicit "t:Place" "Place" (.typedef (.builtin "ULong")),
   .implicit "t:Place" "Place" (.record
     [.implicit "x" "x" (.field (.builtin "Int") none)] .struct),
   .implicit "e:Order" "Order" (.enum (some (.builtin "UInt")) false
     [.implicit "First" "First" (.enumConstant (some "0"))]),
   .implicit "u:Mark" "Mark" (.record
     [.implicit "place" "place" (.field (.ofName "Place") none)] .union)]

/-- What the class and the protocol use. -/
def shelfUsed : Used where
  typedefs := ["t:Place"]
  structs := ["s:Book"]
  enums := ["e:Order"]
  unions := ["u:Mark"]
  objc := ["c:Root", "c:Shelf", "k:Sorting", "p:Keeper"]

/-- On the shelf all kinds are apart. -/
theorem shelf_kindsApart :
    (Table.afterAll shelfDecls).used = .ok shelfUsed ∧
      shelfUsed.KindsApart (Table.afterAll shelfDecls) := by
  have hused : (Table.afterAll shelfDecls).used = .ok shelfUsed := by cbv
  exact ⟨hused, Table.kindsApart_of_used hused⟩

end ObjcBindings
