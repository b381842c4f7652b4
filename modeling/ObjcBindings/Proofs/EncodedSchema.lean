/-
  ObjcBindings.Proofs.EncodedSchema
  ────────────────────────────────
  **DECODING UNDOES ENCODING.**

  Every field is written under the name it is read by, and under no name that
  another field of the same object has.  So a type or declaration is read back
  if what is directly inside it is, and by induction everything is read back
  that the bound of the decoder reaches.

      field?_cons_self    — a field whose name does not come again is found
      decodeBody_encode   — one type, given the types inside it
      decodeFields_fields — one declaration, given what is inside it
      plain_encode        — every encoding can be printed and read again
-/
import ObjcBindings.Proofs.PrintedJson
import ObjcBindings.Proofs.ReachedDeclarations
import ObjcBindings.Schema.Encode
import ObjcBindings.Schema.Read

namespace ObjcBindings

open Text (Json Fault)
open Text.Json

/-! ## §1. Fields. -/

namespace Text.Json

variable {fields : List (String × Json)} {name other : String} {value : Json}

@[simp] theorem field?_nil : field? [] name = .ok none := by
  simp [field?]

/-- The first field is found by its name if the others do not repeat it. -/
@[simp] theorem field?_cons_self (h : field? fields name = .ok none) :
    field? ((name, value) :: fields) name = .ok (some value) := by
  have hnone : fields.filter (·.1 == name) = [] := by
    unfold field? at h
    split at h
    · assumption
    · cases h
    · cases h
  simp [field?, hnone]

@[simp] theorem field?_cons_of_ne (h : other ≠ name) :
    field? ((other, value) :: fields) name = field? fields name := by
  simp [field?, h]

/-- A name that no field has is missing. -/
theorem field?_eq_none (h : name ∉ fields.map Prod.fst) : field? fields name = .ok none := by
  induction fields with
  | nil => exact field?_nil
  | cons field fields ih =>
      rw [List.map_cons, List.mem_cons, not_or] at h
      rw [field?_cons_of_ne (Ne.symm h.1), ih h.2]

/-! A field is read where it stands, past the fields of other names. -/

variable {α : Type} {absent : α} {read : Json → Except Fault α}

/-- A required field that comes first is read. -/
@[simp] theorem required_cons_self (h : field? fields name = .ok none) :
    required ((name, value) :: fields) name read = read value := by
  simp [required, h]

@[simp] theorem required_cons_of_ne (h : other ≠ name) :
    required ((other, value) :: fields) name read = required fields name read := by
  simp [required, h]

/-- A field with a default that comes first is read. -/
@[simp] theorem defaulted_cons_self (h : field? fields name = .ok none) :
    defaulted ((name, value) :: fields) name absent read = read value := by
  simp [defaulted, h]

@[simp] theorem defaulted_cons_of_ne (h : other ≠ name) :
    defaulted ((other, value) :: fields) name absent read
      = defaulted fields name absent read := by
  simp [defaulted, h]

/-- An optional field that comes first is read, or is `null`. -/
@[simp] theorem optional_cons_self (h : field? fields name = .ok none) :
    Json.optional ((name, value) :: fields) name read = asOption read value :=
  defaulted_cons_self h

@[simp] theorem optional_cons_of_ne (h : other ≠ name) :
    Json.optional ((other, value) :: fields) name read = Json.optional fields name read :=
  defaulted_cons_of_ne h

@[simp] theorem recordFields_obj (excess : Fault) (names : List String) :
    recordFields excess names (.obj fields) = .ok fields := rfl

@[simp] theorem asString_str (s : String) : asString (.str s) = .ok s := rfl

@[simp] theorem asBool_bool (b : Bool) : asBool (.bool b) = .ok b := rfl

@[simp] theorem ok_bind {β : Type} (x : α) (f : α → Except Fault β) :
    (Except.ok x >>= f) = f x := rfl

@[simp] theorem error_bind {β : Type} (fault : Fault) (f : α → Except Fault β) :
    (Except.error fault >>= f) = .error fault := rfl

@[simp] theorem pure_ok (x : α) : (pure x : Except Fault α) = .ok x := rfl

end Text.Json

/-! ## §2. Scalars and lists. -/

section

variable {α : Type} {encode : α → Json} {read : Json → Except Fault α}

/-- Items that are each read back are read back as a list. -/
theorem mapItems_map {xs : List α} (h : ∀ x ∈ xs, read (encode x) = .ok x) :
    mapItems read (xs.map encode) = .ok xs := by
  induction xs with
  | nil => rfl
  | cons x xs ih =>
      have hx := h x List.mem_cons_self
      have hxs := ih fun y hy => h y (List.mem_cons_of_mem x hy)
      simp only [List.map_cons, mapItems, hx, hxs, Except.map]

/-- What may be missing is read back, if nothing is written as `null`. -/
theorem asOption_encodeOption {o : Option α} (hnull : ∀ x, encode x ≠ .null)
    (h : ∀ x ∈ o, read (encode x) = .ok x) : asOption read (encodeOption encode o) = .ok o := by
  cases o with
  | none => rfl
  | some x =>
      rw [encodeOption, asOption]
      · rw [h x rfl, Except.map]
      · exact hnull x

end

/-- Texts are read back. -/
@[simp] theorem asStrings_encodeStrings (ss : List String) :
    asStrings (encodeStrings ss) = .ok ss :=
  mapItems_map fun _ _ => rfl

@[simp] theorem asOption_asString (o : Option String) :
    asOption asString (encodeOption .str o) = .ok o :=
  asOption_encodeOption (fun _ heq => by cases heq) fun _ _ => rfl

/-- A number of 32 bits is read back. -/
@[simp] theorem asUInt32_natural (n : UInt32) : asUInt32 (.natural n.toNat) = .ok n := by
  simp [asUInt32, asNat, UInt32.toNat_lt_size, Except.map]

@[simp] theorem asUInt64_natural (n : UInt64) : asUInt64 (.natural n.toNat) = .ok n := by
  simp [asUInt64, asNat, UInt64.toNat_lt_size, Except.map]

@[simp] theorem asOption_asUInt32 (o : Option UInt32) :
    asOption asUInt32 (encodeOption (fun n => .natural n.toNat) o) = .ok o :=
  asOption_encodeOption (fun _ heq => by cases heq) fun n _ => asUInt32_natural n

/-- The nullability of an attribute is read back. -/
@[simp] theorem asOption_nullability (o : Option Nullability) :
    asOption Nullability.decode (encodeOption (fun n => .str n.keyword) o) = .ok o :=
  asOption_encodeOption (fun _ heq => by cases heq) fun n _ => by cases n <;> rfl

/-- The control of a protocol method is read back. -/
@[simp] theorem asOption_control (o : Option ImplementationControl) :
    asOption ImplementationControl.decode (encodeOption (fun c => .str c.keyword) o) = .ok o :=
  asOption_encodeOption (fun _ heq => by cases heq) fun c _ => by cases c <;> rfl

/-- The keyword of a record is read back. -/
@[simp] theorem TagKind.decode_keyword (tag : TagKind) :
    TagKind.decode (.str tag.keyword) = .ok tag := by
  cases tag <;> rfl

/-! ## §3. Nesting. -/

namespace Text.Json

/-- No item is deeper than all of them. -/
theorem depth_le_items {v : Json} {items : List Json} (h : v ∈ items) :
    v.depth ≤ depthItems items := by
  induction items with
  | nil => cases h
  | cons item items ih =>
      rw [depthItems]
      rcases List.mem_cons.1 h with rfl | h
      · exact Nat.le_max_left _ _
      · exact Nat.le_trans (ih h) (Nat.le_max_right _ _)

/-- No field is deeper than all of them. -/
theorem depth_le_fields {field : String × Json} {fields : List (String × Json)}
    (h : field ∈ fields) : field.2.depth ≤ depthFields fields := by
  induction fields with
  | nil => cases h
  | cons first fields ih =>
      rw [depthFields]
      rcases List.mem_cons.1 h with rfl | h
      · exact Nat.le_max_left _ _
      · exact Nat.le_trans (ih h) (Nat.le_max_right _ _)

end Text.Json

/-! ## §4. Types. -/

namespace TypeExpr

/-- A parameter of a function type as JSON. -/
def encodeSlot (slot : Slot TypeExpr) : Json :=
  .obj [("type", encode slot.type), ("is_consumed", .bool slot.isConsumed)]

/-- The base of an object type is written as what may be missing. -/
theorem encodeBase_eq (base : Option TypeExpr) : encodeBase base = encodeOption encode base := by
  cases base <;> rfl

/-- Types are written one by one. -/
theorem encodeList_eq (ts : List TypeExpr) : encodeList ts = ts.map encode := by
  induction ts with
  | nil => rfl
  | cons t ts ih => rw [encodeList, ih, List.map_cons]

theorem encodeSlots_eq (slots : List (Slot TypeExpr)) :
    encodeSlots slots = slots.map encodeSlot := by
  induction slots with
  | nil => rfl
  | cons slot slots ih => rw [encodeSlots, ih, List.map_cons, encodeSlot]

/-- A type is an object that names its class. -/
theorem encode_eq_tagged (t : TypeExpr) :
    ∃ fields, t.encode = tagged t.className fields ∧
      field? fields "type_class" = .ok none := by
  cases t
  case wrapped wrapper inner => cases wrapper <;> exact ⟨_, rfl, by simp⟩
  all_goals exact ⟨_, rfl, by simp⟩

/-- No type is written as `null`. -/
theorem encode_ne_null (t : TypeExpr) : t.encode ≠ .null := by
  obtain ⟨fields, heq, _⟩ := encode_eq_tagged t
  rw [heq, tagged]
  exact Json.noConfusion

/-- A written type is split into its class name and its fields. -/
theorem split_encode (t : TypeExpr) : split t.encode = .ok (t.className, t.encode) := by
  obtain ⟨fields, heq, hnone⟩ := encode_eq_tagged t
  simp [heq, tagged, split, required, hnone, asString, Except.map]

variable {type : Json → Except Fault TypeExpr}

/-- A parameter of a function type is read back if its type is. -/
theorem decodeSlot_encodeSlot {slot : Slot TypeExpr}
    (h : type slot.type.encode = .ok slot.type) :
    decodeSlot type (encodeSlot slot) = .ok slot := by
  simp [decodeSlot, encodeSlot, h]

/-- **A type is read back** if the types directly inside it are. -/
theorem decodeBody_encode (t : TypeExpr) (h : ∀ t' ∈ t.inner, type t'.encode = .ok t') :
    decodeBody type t.className t.encode = .ok t := by
  cases t
  case wrapped wrapper inner =>
    have hinner := h inner List.mem_cons_self
    cases wrapper <;> simp [className, encode, tagged, decodeBody, hinner]
  case object base interface protocols args =>
    have hbase : asOption type (encodeBase base) = .ok base := by
      rw [encodeBase_eq]
      refine asOption_encodeOption encode_ne_null fun t' ht' => h t' ?_
      exact List.mem_append_left args (Option.mem_toList.2 ht')
    have hargs : asList type (.arr (encodeList args)) = .ok args := by
      rw [encodeList_eq]
      exact mapItems_map fun t' ht' => h t' (List.mem_append_right base.toList ht')
    simp [className, encode, tagged, decodeBody, hbase, hargs]
  case function params result isVariadic =>
    have hparams : asList (decodeSlot type) (.arr (encodeSlots params)) = .ok params := by
      rw [encodeSlots_eq]
      refine mapItems_map fun slot hslot => decodeSlot_encodeSlot (h slot.type ?_)
      exact List.mem_cons_of_mem result (List.mem_map_of_mem hslot)
    have hresult := h result List.mem_cons_self
    simp [className, encode, tagged, decodeBody, hparams, hresult]
  -- The others hold one type or none.
  all_goals simp_all [className, encode, tagged, decodeBody, inner]

/-- A type is written inside the type it is in. -/
theorem depth_encode_lt {t t' : TypeExpr} (h : t' ∈ t.inner) :
    t'.encode.depth < t.encode.depth := by
  cases t
  case wrapped wrapper inner =>
    rw [List.mem_singleton.1 h]
    cases wrapper <;> simp [encode, tagged, depth, depthFields]
  case object base interface protocols args =>
    rcases List.mem_append.1 h with hbase | harg
    · have hlt : t'.encode.depth ≤ (encodeBase base).depth := by
        rw [Option.mem_toList.1 hbase, encodeBase]
      simp only [encode, tagged, depth, depthFields]
      omega
    · have hlt : t'.encode.depth ≤ depthItems (encodeList args) := by
        rw [encodeList_eq]
        exact depth_le_items (List.mem_map_of_mem harg)
      simp only [encode, tagged, depth, depthFields]
      omega
  case function params result isVariadic =>
    rcases List.mem_cons.1 h with rfl | hparam
    · simp only [encode, tagged, depth, depthFields]
      omega
    · obtain ⟨slot, hslot, rfl⟩ := List.mem_map.1 hparam
      have hlt : (encodeSlot slot).depth ≤ depthItems (encodeSlots params) := by
        rw [encodeSlots_eq]
        exact depth_le_items (List.mem_map_of_mem hslot)
      simp only [encodeSlot, encode, tagged, depth, depthFields] at hlt ⊢
      omega
  -- The others hold one type or none.
  all_goals simp_all [inner, encode, tagged, depth, depthFields]

/-- Induction on what is inside a type. -/
theorem inner_induction {P : TypeExpr → Prop} (step : ∀ t, (∀ t' ∈ t.inner, P t') → P t)
    (t : TypeExpr) : P t :=
  step t fun t' _ => inner_induction step t'
-- What is inside is written inside, so the depth of the text goes down.
termination_by t.encode.depth
decreasing_by exact depth_encode_lt ‹_›

/-- **A type within the bound is read back.** -/
theorem decode_encode (t : TypeExpr) (bound : Nat) (h : t.encode.depth ≤ bound) :
    decode bound t.encode = .ok t := by
  induction t using inner_induction generalizing bound with
  | step t ih =>
    obtain ⟨fields, htagged, _⟩ := encode_eq_tagged t
    cases bound with
    | zero =>
        rw [htagged, tagged, depth] at h
        cases h
    | succ bound =>
        have hinner : ∀ t' ∈ t.inner, decode bound t'.encode = .ok t' := by
          intro t' ht'
          have hlt := depth_encode_lt ht'
          exact ih t' ht' bound (by omega)
        simp only [decode, split_encode]
        exact decodeBody_encode t hinner

end TypeExpr

/-! ## §5. Declarations. -/

/-- A location is read back. -/
theorem Location.decode_encode (excess : Fault) (l : Location) :
    Location.decode excess l.encode = .ok l := by
  simp [Location.decode, Location.encode, scan, Json.discard, Except.map]

/-- A location that may be missing is read back. -/
theorem asOption_location (excess : Fault) (o : Option Location) :
    asOption (Location.decode excess) (encodeOption Location.encode o) = .ok o :=
  asOption_encodeOption (fun _ heq => by cases heq) fun l _ => l.decode_encode excess

/-- A parameter is read back if its type is. -/
theorem Param.decode_encode {bound : Nat} {p : Param}
    (h : TypeExpr.decode bound p.type.encode = .ok p.type) :
    Param.decode bound p.encode = .ok p := by
  simp [Param.decode, Param.encode, h]

/-- The attributes of a method are read back. -/
theorem MethodAttrs.decode_encode (attrs : MethodAttrs) :
    MethodAttrs.decode (.obj [("ns_returns_retained", .bool attrs.returnsRetained),
      ("self_is_consumed", .bool attrs.consumesSelf)]) = .ok attrs := by
  simp [MethodAttrs.decode]

/-- The declarations directly inside a declaration. -/
def DeclKind.inner : DeclKind → List Decl
  | .interface children _ _ _ | .protocol children _ | .category _ children _ => children
  | .record fields _ => fields
  | .enum _ _ enumerators => enumerators
  | .method _ | .property _ | .ivar _ | .typedef _ | .field _ _ | .enumConstant _
  | .function _ _ _ _ | .var _ => []

/-- The types directly inside a declaration. -/
def DeclKind.types : DeclKind → List TypeExpr
  | .method m => m.types
  | .property type | .ivar type | .typedef type | .field type _ | .var type => [type]
  | .enum integerType _ _ => integerType.toList
  | .function type params _ _ => type :: params.map Param.type
  | .interface _ _ _ _ | .protocol _ _ | .category _ _ _ | .record _ _ | .enumConstant _ => []

theorem Decl.encodeList_eq (ds : List Decl) : Decl.encodeList ds = ds.map Decl.encode := by
  induction ds with
  | nil => rfl
  | cons d ds ih => rw [Decl.encodeList, ih, List.map_cons]

/-- The names of the fields that every declaration has. -/
def Decl.ownNames : List String :=
  ["usr", "name", "location", "is_implicit", "is_referenced", "is_forward_declaration", "kind"]

/-- The fields of a declaration. -/
def Decl.fields (d : Decl) : List (String × Json) :=
  [("usr", .str d.usr), ("name", .str d.name),
   ("location", encodeOption Location.encode d.location), ("is_implicit", .bool d.isImplicit),
   ("is_referenced", .bool d.isReferenced), ("is_forward_declaration", .bool d.isForward),
   ("kind", .str d.kind.name)] ++ d.kind.encodeFields

/-- A declaration is written as an object of its fields. -/
theorem Decl.encode_eq (d : Decl) : d.encode = .obj d.fields := by
  obtain ⟨usr, name, location, isImplicit, isReferenced, isForward, kind⟩ := d
  rw [Decl.encode, Decl.fields]

/-- **No kind has a field under a name that every declaration has.** -/
theorem DeclKind.not_mem_encodeFields (k : DeclKind) {name : String}
    (h : name ∈ Decl.ownNames) : name ∉ k.encodeFields.map Prod.fst := by
  have hall : ∀ name ∈ Decl.ownNames, name ∉ k.encodeFields.map Prod.fst := by
    cases k <;> simp [Decl.ownNames, DeclKind.encodeFields, Method.encodeFields]
  exact hall name h

section

variable {decl : Json → Except Fault Decl} {bound : Nat}

/-- Parameters are read back if their types are. -/
theorem asList_params {ps : List Param}
    (h : ∀ p ∈ ps, TypeExpr.decode bound p.type.encode = .ok p.type) :
    asList (Param.decode bound) (.arr (ps.map Param.encode)) = .ok ps :=
  mapItems_map fun p hp => Param.decode_encode (h p hp)

/-- Declarations are read back if each of them is. -/
theorem asList_decls {ds : List Decl} (h : ∀ d ∈ ds, decl d.encode = .ok d) :
    asList decl (.arr (Decl.encodeList ds)) = .ok ds := by
  rw [Decl.encodeList_eq]
  exact mapItems_map h

/-- **A kind is read back** from the fields of its declaration, if what is
directly inside it is. -/
theorem DeclKind.decode_fields (d : Decl) {k : DeclKind} (hk : d.kind = k)
    (hdecls : ∀ c ∈ k.inner, decl c.encode = .ok c)
    (htypes : ∀ t ∈ k.types, TypeExpr.decode bound t.encode = .ok t) :
    DeclKind.decode decl bound k.name d.fields = .ok k := by
  rw [Decl.fields, hk]
  cases k
  case interface children protocols superclass typeParams =>
    have hchildren : asList decl (.arr (Decl.encodeList children)) = .ok children :=
      asList_decls hdecls
    simp [DeclKind.decode, DeclKind.name, DeclKind.encodeFields, hchildren]
  case protocol children protocols =>
    have hchildren : asList decl (.arr (Decl.encodeList children)) = .ok children :=
      asList_decls hdecls
    simp [DeclKind.decode, DeclKind.name, DeclKind.encodeFields, hchildren]
  case category className children protocols =>
    have hchildren : asList decl (.arr (Decl.encodeList children)) = .ok children :=
      asList_decls hdecls
    simp [DeclKind.decode, DeclKind.name, DeclKind.encodeFields, hchildren]
  case method m =>
    have hparams : asList (Param.decode bound) (.arr (m.params.map Param.encode)) = .ok m.params :=
      asList_params fun p hp => htypes p.type (List.mem_cons_of_mem _ (List.mem_map_of_mem hp))
    have hresult := htypes m.result List.mem_cons_self
    simp [DeclKind.decode, DeclKind.name, DeclKind.encodeFields,
      Method.encodeFields, Method.decode, hparams, hresult, MethodAttrs.decode_encode]
  case record fields tag =>
    have hfields : asList decl (.arr (Decl.encodeList fields)) = .ok fields :=
      asList_decls hdecls
    simp [DeclKind.decode, DeclKind.name, DeclKind.encodeFields, hfields]
  case enum integerType isClosed enumerators =>
    have hinteger : asOption (TypeExpr.decode bound) (encodeOption TypeExpr.encode integerType)
        = .ok integerType :=
      asOption_encodeOption TypeExpr.encode_ne_null fun t ht =>
        htypes t (Option.mem_toList.2 ht)
    have henumerators : asList decl (.arr (Decl.encodeList enumerators)) = .ok enumerators :=
      asList_decls hdecls
    simp [DeclKind.decode, DeclKind.name, DeclKind.encodeFields, hinteger,
      henumerators]
  case function type params isVariadic hasBody =>
    have hparams : asList (Param.decode bound) (.arr (params.map Param.encode)) = .ok params :=
      asList_params fun p hp => htypes p.type (List.mem_cons_of_mem _ (List.mem_map_of_mem hp))
    have htype := htypes type List.mem_cons_self
    simp [DeclKind.decode, DeclKind.name, DeclKind.encodeFields, hparams, htype]
  case enumConstant value =>
    simp [DeclKind.decode, DeclKind.name, DeclKind.encodeFields]
  -- The other kinds are a type, one of them with a width.
  all_goals
    have htype := htypes _ List.mem_cons_self
    simp [DeclKind.decode, DeclKind.name, DeclKind.encodeFields, htype]

/-- **A declaration is read back** from its fields, if what is directly inside
it is. -/
theorem Decl.decodeFields_fields (excess : Fault) (d : Decl)
    (hdecls : ∀ c ∈ d.kind.inner, decl c.encode = .ok c)
    (htypes : ∀ t ∈ d.kind.types, TypeExpr.decode bound t.encode = .ok t) :
    Decl.decodeFields decl excess bound d.fields = .ok d := by
  have hkind := DeclKind.decode_fields d rfl hdecls htypes
  have hown : ∀ name ∈ Decl.ownNames, field? d.kind.encodeFields name = .ok none :=
    fun name hname => field?_eq_none (d.kind.not_mem_encodeFields hname)
  simp only [Decl.ownNames, List.forall_mem_cons] at hown
  obtain ⟨husr, hname, hlocation, himplicit, hreferenced, hforward, hkindName, _⟩ := hown
  have hkindField : required d.fields "kind" asString = .ok d.kind.name := by
    simp [Decl.fields, hkindName]
  simp only [Decl.decodeFields, hkindField, ok_bind, hkind]
  simp only [Decl.fields, List.cons_append, List.nil_append]
  simp [husr, hname, hlocation, himplicit, hreferenced, hforward, asOption_location]
  cases d
  rfl

end

/-- The depth of two groups of fields is that of the deeper one. -/
theorem depthFields_append (fs gs : List (String × Json)) :
    depthFields (fs ++ gs) = max (depthFields fs) (depthFields gs) := by
  induction fs with
  | nil => simp [depthFields]
  | cons f fs ih => simp only [List.cons_append, depthFields, ih, Nat.max_assoc]

/-- A declaration is written in an array inside the declaration it is in. -/
theorem DeclKind.depth_inner_lt {k : DeclKind} {c : Decl} (h : c ∈ k.inner) :
    c.encode.depth < depthFields k.encodeFields := by
  have hle : c.encode.depth ≤ depthItems (Decl.encodeList k.inner) := by
    rw [Decl.encodeList_eq]
    exact depth_le_items (List.mem_map_of_mem h)
  cases k
  case interface | protocol | category | record | enum =>
    simp only [DeclKind.inner, DeclKind.encodeFields, depthFields, depth] at hle ⊢
    omega
  all_goals cases h

/-- A type is written inside the declaration it is in. -/
theorem DeclKind.depth_types_le {k : DeclKind} {t : TypeExpr} (h : t ∈ k.types) :
    t.encode.depth ≤ depthFields k.encodeFields := by
  -- The type of a parameter is a field of its object, which is an item.
  have hparam : ∀ {ps : List Param}, t ∈ ps.map Param.type →
      t.encode.depth ≤ depthItems (ps.map Param.encode) := by
    intro ps hps
    obtain ⟨p, hp, rfl⟩ := List.mem_map.1 hps
    have hle := depth_le_items (List.mem_map_of_mem (f := Param.encode) hp)
    simp only [Param.encode, depth, depthFields] at hle ⊢
    omega
  cases k
  case method m =>
    rcases List.mem_cons.1 h with rfl | h
    · simp only [DeclKind.encodeFields, Method.encodeFields, depthFields]
      omega
    · have hle := hparam h
      simp only [DeclKind.encodeFields, Method.encodeFields, depthFields, depth]
      omega
  case function type params isVariadic hasBody =>
    rcases List.mem_cons.1 h with rfl | h
    · simp only [DeclKind.encodeFields, depthFields]
      omega
    · have hle := hparam h
      simp only [DeclKind.encodeFields, depthFields, depth]
      omega
  case enum integerType isClosed enumerators =>
    rw [Option.mem_toList.1 h, DeclKind.encodeFields, encodeOption, depthFields]
    exact Nat.le_max_left _ _
  case property | ivar | typedef | field | var =>
    rw [List.mem_singleton.1 h, DeclKind.encodeFields, depthFields]
    exact Nat.le_max_left _ _
  all_goals cases h

namespace Decl

/-- The fields of the kind are less deep than the declaration. -/
theorem depth_kind_lt (d : Decl) : depthFields d.kind.encodeFields < d.encode.depth := by
  rw [encode_eq, depth, fields, depthFields_append]
  omega

/-- Induction on what is inside a declaration. -/
theorem inner_induction {P : Decl → Prop} (step : ∀ d, (∀ c ∈ d.kind.inner, P c) → P d)
    (d : Decl) : P d :=
  step d fun c _ => inner_induction step c
termination_by d.encode.depth
decreasing_by exact Nat.lt_trans (DeclKind.depth_inner_lt ‹_›) d.depth_kind_lt

/-- **A declaration within the bound is read back.** -/
theorem decode_encode (d : Decl) (bound : Nat) (h : d.encode.depth ≤ bound) :
    decode bound d.encode = .ok d := by
  induction d using inner_induction generalizing bound with
  | step d ih =>
    have hkind := d.depth_kind_lt
    cases bound with
    | zero => omega
    | succ bound =>
        rw [encode_eq, decode]
        refine decodeFields_fields .mismatch d ?_ ?_
        · intro c hc
          have hlt := DeclKind.depth_inner_lt hc
          exact ih c hc bound (by omega)
        · intro t ht
          have hle := DeclKind.depth_types_le ht
          exact t.decode_encode bound (by omega)

end Decl

/-! ## §6. Encodings are plain. -/

namespace Text.Json

/-- Items are plain if each is written plainly. -/
theorem plainItems_map {α : Type} {encode : α → Json} {xs : List α}
    (h : ∀ x ∈ xs, (encode x).Plain) : PlainItems (xs.map encode) := by
  induction xs with
  | nil => trivial
  | cons x xs ih =>
      exact ⟨h x List.mem_cons_self, ih fun y hy => h y (List.mem_cons_of_mem x hy)⟩

/-- Two groups of plain fields are plain. -/
theorem plainFields_append {fs gs : List (String × Json)} (hfs : PlainFields fs)
    (hgs : PlainFields gs) : PlainFields (fs ++ gs) := by
  induction fs with
  | nil => exact hgs
  | cons f fs ih => exact ⟨hfs.1, ih hfs.2⟩

end Text.Json

/-- What may be missing is written plainly if it is when present. -/
theorem plain_encodeOption {α : Type} {encode : α → Json} {o : Option α}
    (h : ∀ x ∈ o, (encode x).Plain) : (encodeOption encode o).Plain := by
  cases o with
  | none => trivial
  | some x => exact h x rfl

theorem plain_encodeStrings (ss : List String) : (encodeStrings ss).Plain :=
  plainItems_map fun _ _ => trivial

theorem plain_uint32 (n : UInt32) : (Json.natural n.toNat).Plain :=
  Nat.lt_trans n.toNat_lt (by decide)

theorem plain_uint64 (n : UInt64) : (Json.natural n.toNat).Plain :=
  n.toNat_lt

/-- Types are written plainly. -/
theorem TypeExpr.plain_encode (t : TypeExpr) : t.encode.Plain := by
  induction t using TypeExpr.inner_induction with
  | step t ih =>
    cases t
    case wrapped wrapper inner =>
      have hinner := ih inner List.mem_cons_self
      cases wrapper with
      | attributed nullability returnsRetained =>
          exact ⟨trivial, hinner, plain_encodeOption fun _ _ => trivial, trivial, trivial⟩
      | elaborated keyword =>
          exact ⟨trivial, hinner, plain_encodeOption fun _ _ => trivial, trivial⟩
      | paren => exact ⟨trivial, hinner, trivial⟩
    case object base interface protocols args =>
      have hbase : (encodeBase base).Plain := by
        rw [encodeBase_eq]
        refine plain_encodeOption fun t' ht' => ih t' ?_
        exact List.mem_append_left args (Option.mem_toList.2 ht')
      have hargs : PlainItems (encodeList args) := by
        rw [encodeList_eq]
        exact plainItems_map fun t' ht' => ih t' (List.mem_append_right base.toList ht')
      exact ⟨trivial, hbase, plain_encodeOption fun _ _ => trivial, plain_encodeStrings protocols,
        hargs, trivial⟩
    case function params result isVariadic =>
      have hparams : PlainItems (encodeSlots params) := by
        rw [encodeSlots_eq]
        refine plainItems_map fun slot hslot => ⟨ih slot.type ?_, trivial, trivial⟩
        exact List.mem_cons_of_mem result (List.mem_map_of_mem hslot)
      exact ⟨trivial, hparams, ih result List.mem_cons_self, trivial, trivial⟩
    case constantArray element size =>
      exact ⟨trivial, ih element List.mem_cons_self, plain_uint64 size, trivial⟩
    case vector element lanes | extVector element lanes =>
      exact ⟨trivial, ih element List.mem_cons_self, plain_uint32 lanes, trivial⟩
    case typeParam name protocols =>
      exact ⟨trivial, trivial, plain_encodeStrings protocols, trivial⟩
    case builtin | typedef | record | enum | unknown => simp [encode, tagged, Plain, PlainFields]
    -- The others hold one type and nothing else.
    all_goals exact ⟨trivial, ih _ List.mem_cons_self, trivial⟩

theorem Param.plain_encode (p : Param) : p.encode.Plain :=
  ⟨trivial, p.type.plain_encode, ⟨trivial, trivial⟩, trivial⟩

/-- The fields of a method are plain. -/
theorem Method.plain_encodeFields (m : Method) : PlainFields m.encodeFields :=
  ⟨trivial, trivial, plainItems_map fun p _ => p.plain_encode, m.result.plain_encode, trivial,
    plain_encodeOption fun _ _ => trivial, plain_encodeOption fun _ _ => trivial,
    ⟨trivial, trivial, trivial⟩, trivial⟩

/-- The fields of a kind are plain if the declarations inside it are. -/
theorem DeclKind.plain_encodeFields {k : DeclKind} (h : ∀ c ∈ k.inner, c.encode.Plain) :
    PlainFields k.encodeFields := by
  have hdecls : PlainItems (Decl.encodeList k.inner) := by
    rw [Decl.encodeList_eq]
    exact plainItems_map h
  cases k with
  | interface children protocols superclass typeParams =>
      exact ⟨hdecls, plain_encodeStrings protocols, plain_encodeOption fun _ _ => trivial,
        plain_encodeStrings typeParams, trivial⟩
  | protocol children protocols => exact ⟨hdecls, plain_encodeStrings protocols, trivial⟩
  | category className children protocols =>
      exact ⟨trivial, hdecls, plain_encodeStrings protocols, trivial⟩
  | method m => exact m.plain_encodeFields
  | property type => exact ⟨type.plain_encode, trivial⟩
  | ivar type => exact ⟨type.plain_encode, trivial⟩
  | typedef type => exact ⟨type.plain_encode, trivial⟩
  | record fields tag => exact ⟨hdecls, trivial, trivial⟩
  | field type bitWidth =>
      exact ⟨type.plain_encode, plain_encodeOption fun n _ => plain_uint32 n, trivial⟩
  | enum integerType isClosed enumerators =>
      exact ⟨plain_encodeOption fun t _ => t.plain_encode, trivial, hdecls, trivial⟩
  | enumConstant value => exact ⟨plain_encodeOption fun _ _ => trivial, trivial⟩
  | function type params isVariadic hasBody =>
      exact ⟨type.plain_encode, plainItems_map fun p _ => p.plain_encode, trivial, trivial, trivial⟩
  | var type => exact ⟨type.plain_encode, trivial⟩

theorem Location.plain_encode (l : Location) : l.encode.Plain :=
  ⟨trivial, plain_encodeOption fun n _ => plain_uint32 n, trivial⟩

/-- Declarations are written plainly. -/
theorem Decl.plain_encode (d : Decl) : d.encode.Plain := by
  induction d using Decl.inner_induction with
  | step d ih =>
    rw [encode_eq, fields]
    refine plainFields_append ?_ (DeclKind.plain_encodeFields ih)
    exact ⟨trivial, trivial, plain_encodeOption fun l _ => l.plain_encode, trivial, trivial,
      trivial, trivial, trivial⟩

/-- **Every encoding is plain**: it can be printed and read again. -/
theorem TranslationUnit.plain_encode (unit : TranslationUnit) : unit.encode.Plain := by
  refine ⟨trivial, ?_, trivial⟩
  rw [Plain, Decl.encodeList_eq]
  exact plainItems_map fun d _ => d.plain_encode

end ObjcBindings
