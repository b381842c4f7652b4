/-
  ObjcBindings.Proofs.FilledDefaults
  ────────────────────────────────
  **FILLING IN DEFAULTS NESTS ONE LEVEL DEEPER AT MOST.**

  What a decoder fills in is a scalar, an empty list or an object of scalars,
  so it adds a level to the record it belongs to and to nothing inside that.
  What stands in the text is written at the depth it was read at, or one
  deeper.

      Deepens             — written at most one level deeper than read
      deepens_body        — a type, given the types inside it
      depth_decode_le     — the payload of a kind
      depth_of_decodeRoot — a whole unit
-/
import ObjcBindings.Proofs.NestingLimit

namespace ObjcBindings

open Text (Json Fault)
open Text.Json

/-! ## §1. Records and lists. -/

namespace Text.Json

variable {α : Type} {read : Json → Except Fault α} {encode : α → Json}
  {fs : List (String × Json)} {name : String}

/-- What is read from a value is written at most one level deeper. -/
def Deepens (read : Json → Except Fault α) (encode : α → Json) : Prop :=
  ∀ v x, read v = .ok x → (encode x).depth ≤ v.depth + 1

/-- A field that is found is one of the object. -/
theorem mem_of_field? {v : Json} (h : field? fs name = .ok (some v)) : (name, v) ∈ fs := by
  unfold field? at h
  split at h
  · cases h
  · next other value hfilter =>
    cases h
    have hmem : (other, v) ∈ fs.filter (·.1 == name) := hfilter ▸ List.mem_cons_self
    obtain ⟨hmem, heq⟩ := List.mem_filter.1 hmem
    rw [← eq_of_beq heq]
    exact hmem
  · cases h

/-- A field with a default is not deeper than the object allows, filled in or read. -/
theorem Deepens.defaulted (h : Deepens read encode) {absent x : α}
    (habsent : (encode absent).depth ≤ 1) (hx : defaulted fs name absent read = .ok x) :
    (encode x).depth ≤ depthFields fs + 1 := by
  unfold Json.defaulted at hx
  split at hx
  · cases hx
  · cases hx
    omega
  · next v hv =>
    have hread := h v x hx
    have hle : v.depth ≤ depthFields fs := depth_le_fields (mem_of_field? hv)
    omega

theorem Deepens.required (h : Deepens read encode) {x : α}
    (hx : required fs name read = .ok x) : (encode x).depth ≤ depthFields fs + 1 := by
  unfold Json.required at hx
  split at hx
  · cases hx
  · cases hx
  · next v hv =>
    have hread := h v x hx
    have hle : v.depth ≤ depthFields fs := depth_le_fields (mem_of_field? hv)
    omega

theorem Deepens.option (h : Deepens read encode) :
    Deepens (asOption read) (encodeOption encode) := by
  intro v o ho
  unfold asOption at ho
  split at ho
  · cases ho
    exact Nat.zero_le _
  · obtain ⟨x, hx, rfl⟩ := map_eq_ok_iff.1 ho
    exact h v x hx

theorem Deepens.optional (h : Deepens read encode) {o : Option α}
    (ho : Json.optional fs name read = .ok o) :
    (encodeOption encode o).depth ≤ depthFields fs + 1 := by
  have habsent : (encodeOption encode none).depth ≤ 1 := Nat.zero_le 1
  exact h.option.defaulted habsent ho

/-- Items grow by one level at most. -/
theorem Deepens.items (h : Deepens read encode) :
    ∀ {items : List Json} {xs : List α}, mapItems read items = .ok xs →
      depthItems (xs.map encode) ≤ depthItems items + 1
  | [], xs, hxs => by
      cases hxs
      exact Nat.zero_le _
  | item :: items, xs, hxs => by
      rw [mapItems] at hxs
      split at hxs
      · cases hxs
      · next x hx =>
        obtain ⟨rest, hrest, rfl⟩ := map_eq_ok_iff.1 hxs
        have hitem := h item x hx
        have hitems := h.items hrest
        simp only [List.map_cons, depthItems]
        omega

theorem Deepens.list (h : Deepens read encode) :
    Deepens (asList read) (fun xs => .arr (xs.map encode)) := by
  intro v xs hxs
  unfold asList at hxs
  split at hxs
  · have hitems := h.items hxs
    simp only [depth]
    omega
  · cases hxs

/-- A list that may be left out is written as an empty one. -/
theorem Deepens.defaultedList (h : Deepens read encode) {xs : List α}
    (hxs : Json.defaulted fs name [] (asList read) = .ok xs) :
    depthItems (xs.map encode) ≤ depthFields fs := by
  have habsent : (Json.arr (([] : List α).map encode)).depth ≤ 1 := Nat.le_refl 1
  exact Nat.le_of_succ_le_succ (h.list.defaulted habsent hxs)

/-- A required list is as deep as the object allows. -/
theorem Deepens.requiredList (h : Deepens read encode) {xs : List α}
    (hxs : Json.required fs name (asList read) = .ok xs) :
    depthItems (xs.map encode) ≤ depthFields fs :=
  Nat.le_of_succ_le_succ (h.list.required hxs)

/-- Names do not make items deeper. -/
theorem depthFields_zip_le : ∀ (names : List String) (items : List Json),
    depthFields (names.zip items) ≤ depthItems items
  | [], _ => Nat.zero_le _
  | _ :: _, [] => Nat.zero_le _
  | name :: names, item :: items => by
      have hrest := depthFields_zip_le names items
      simp only [List.zip_cons_cons, depthFields, depthItems]
      omega

/-- The fields of a record are inside it. -/
theorem depth_recordFields {excess : Fault} {names : List String} {v : Json}
    (h : recordFields excess names v = .ok fs) : depthFields fs < v.depth := by
  unfold recordFields at h
  split at h
  · cases h
    exact Nat.lt_succ_self _
  · next items =>
    split at h
    · cases h
      exact Nat.lt_succ_of_le (depthFields_zip_le names items)
    · cases h
  · cases h

end Text.Json

/-! ## §2. Types. -/

/-- An optional scalar is a scalar. -/
theorem depth_encodeOption {α : Type} (encode : α → Json) (h : ∀ x, (encode x).depth = 0)
    (o : Option α) : (encodeOption encode o).depth = 0 := by
  cases o with
  | none => rfl
  | some x => exact h x

/-- A list of texts has one level. -/
theorem depth_encodeStrings_le (ss : List String) : (encodeStrings ss).depth ≤ 1 := by
  induction ss with
  | nil => exact Nat.le_refl 1
  | cons s ss ih => simpa [encodeStrings, depth, depthItems] using ih

namespace TypeExpr

variable {type : Json → Except Fault TypeExpr}

/-- A parameter of a function type grows by one level at most, if its type does. -/
theorem deepens_slot (h : Deepens type encode) : Deepens (decodeSlot type) encodeSlot := by
  intro v slot hslot
  simp only [decodeSlot, bind_eq_ok_iff, pure_ok, Except.ok.injEq] at hslot
  obtain ⟨fs, hfs, t, ht, consumed, _, rfl⟩ := hslot
  have hinside := depth_recordFields hfs
  have htype := h.required ht
  simp only [encodeSlot, depth, depthFields]
  omega

/-- **A type is written at most one level deeper** if those inside it are. -/
theorem deepens_body (h : Deepens type encode) (className : String) :
    Deepens (decodeBody type className) encode := by
  intro body t ht
  unfold decodeBody at ht
  split at ht <;> simp only [bind_eq_ok_iff, pure_ok, Except.ok.injEq] at ht <;>
    obtain ⟨fs, hfs, ht⟩ := ht <;> have hinside := depth_recordFields hfs <;> clear hfs
  -- Without a type inside.
  case h_1 | h_9 | h_10 =>
    obtain ⟨_, _, rfl⟩ := ht
    simp [encode, tagged, depth, depthFields]
  case h_2 =>
    obtain ⟨_, _, _, _, rfl⟩ := ht
    simp [encode, tagged, depth, depthFields]
  case h_20 =>
    obtain ⟨_, _, protocols, _, rfl⟩ := ht
    have hprotocols := depth_encodeStrings_le protocols
    simp only [encode, tagged, depth, depthFields]
    omega
  case h_21 =>
    subst ht
    simp [encode, tagged, depth, depthFields]
  -- With one type inside.
  case h_3 | h_4 | h_5 | h_6 | h_13 | h_15 | h_17 =>
    obtain ⟨t', ht', rfl⟩ := ht
    have htype := h.required ht'
    simp only [encode, tagged, depth, depthFields]
    omega
  case h_16 | h_18 | h_19 =>
    obtain ⟨t', ht', _, _, rfl⟩ := ht
    have htype := h.required ht'
    simp only [encode, tagged, depth, depthFields]
    omega
  case h_11 =>
    obtain ⟨t', ht', nullability, _, _, _, rfl⟩ := ht
    have htype := h.required ht'
    have hscalar := depth_encodeOption (fun n => .str n.keyword) (fun _ => rfl) nullability
    simp only [encode, tagged, depth, depthFields, hscalar]
    omega
  case h_12 =>
    obtain ⟨t', ht', keyword, _, rfl⟩ := ht
    have htype := h.required ht'
    have hscalar := depth_encodeOption Json.str (fun _ => rfl) keyword
    simp only [encode, tagged, depth, depthFields, hscalar]
    omega
  -- With lists of types inside.
  case h_7 | h_8 =>
    obtain ⟨base, hbase, interface, _, protocols, _, args, hargs, rfl⟩ := ht
    have hbase := h.optional hbase
    have hargs := h.defaultedList hargs
    have hscalar := depth_encodeOption Json.str (fun _ => rfl) interface
    have hprotocols := depth_encodeStrings_le protocols
    rw [← encodeBase_eq] at hbase
    rw [← encodeList_eq] at hargs
    simp only [encode, tagged, depth, depthFields, hscalar]
    omega
  case h_14 =>
    obtain ⟨params, hparams, result, hresult, _, _, rfl⟩ := ht
    have hparams := (deepens_slot h).defaultedList hparams
    have hresult := h.required hresult
    rw [← encodeSlots_eq] at hparams
    simp only [encode, tagged, depth, depthFields]
    omega

/-- The fields of a type are not deeper than the type. -/
theorem depth_split_le {v body : Json} {className : String}
    (h : split v = .ok (className, body)) : body.depth ≤ v.depth := by
  unfold split at h
  split at h
  · obtain ⟨_, _, heq⟩ := map_eq_ok_iff.1 h
    cases heq
    exact Nat.le_refl _
  · obtain ⟨_, _, heq⟩ := map_eq_ok_iff.1 h
    cases heq
    simp only [depth, depthItems]
    omega
  · cases h
  · cases h

/-- **What is read grows by one level at most**, whatever the bound. -/
theorem deepens_decode : ∀ bound : Nat, Deepens (decode bound) encode
  | 0, _, _, ht => by cases ht
  | bound + 1, v, t, ht => by
      rw [decode] at ht
      split at ht
      · cases ht
      · next className body hsplit =>
        have hbody := deepens_body (deepens_decode bound) className body t ht
        have hle := depth_split_le hsplit
        omega

end TypeExpr

/-! ## §3. Declarations. -/

theorem Param.deepens_decode (bound : Nat) : Deepens (Param.decode bound) Param.encode := by
  intro v p hp
  simp only [Param.decode, bind_eq_ok_iff, pure_ok, Except.ok.injEq] at hp
  obtain ⟨fs, hfs, name, _, type, htype, consumed, _, rfl⟩ := hp
  have hinside := depth_recordFields hfs
  have htype := (TypeExpr.deepens_decode bound).required htype
  simp only [Param.encode, depth, depthFields]
  omega

variable {bound : Nat} {fs : List (String × Json)}

/-- The fields of a method grow by one level at most. -/
theorem Method.depth_decode_le {m : Method} (hm : Method.decode bound fs = .ok m) :
    depthFields m.encodeFields ≤ depthFields fs + 1 := by
  simp only [Method.decode, bind_eq_ok_iff, pure_ok, Except.ok.injEq] at hm
  obtain ⟨_, _, _, _, params, hparams, result, hresult, _, _, family, _, control, _, _, _, rfl⟩ :=
    hm
  have hparams := (Param.deepens_decode bound).requiredList hparams
  have hresult := (TypeExpr.deepens_decode bound).required hresult
  have hfamily := depth_encodeOption Json.str (fun _ => rfl) family
  have hcontrol := depth_encodeOption (fun c => .str c.keyword) (fun _ => rfl) control
  simp only [Method.encodeFields, depthFields, depth, hfamily, hcontrol]
  omega

/-- **A kind is written at most one level deeper** if the declarations inside
it are. -/
theorem DeclKind.depth_decode_le {decl : Json → Except Fault Decl} (h : Deepens decl Decl.encode)
    {kind : String} {k : DeclKind} (hk : DeclKind.decode decl bound kind fs = .ok k) :
    depthFields k.encodeFields ≤ depthFields fs + 1 := by
  unfold DeclKind.decode at hk
  split at hk <;> simp only [bind_eq_ok_iff, pure_ok, Except.ok.injEq] at hk
  -- A kind with two names is read the same by both.
  case h_1 | h_2 =>
    obtain ⟨children, hchildren, protocols, _, superclass, _, typeParams, _, rfl⟩ := hk
    have hchildren := h.defaultedList hchildren
    have hprotocols := depth_encodeStrings_le protocols
    have htypeParams := depth_encodeStrings_le typeParams
    have hscalar := depth_encodeOption Json.str (fun _ => rfl) superclass
    rw [← Decl.encodeList_eq] at hchildren
    simp only [encodeFields, depthFields, depth, hscalar]
    omega
  case h_3 | h_4 =>
    obtain ⟨children, hchildren, protocols, _, rfl⟩ := hk
    have hchildren := h.defaultedList hchildren
    have hprotocols := depth_encodeStrings_le protocols
    rw [← Decl.encodeList_eq] at hchildren
    simp only [encodeFields, depthFields, depth]
    omega
  case h_5 | h_6 =>
    obtain ⟨className, _, children, hchildren, protocols, _, rfl⟩ := hk
    have hchildren := h.defaultedList hchildren
    have hprotocols := depth_encodeStrings_le protocols
    rw [← Decl.encodeList_eq] at hchildren
    simp only [encodeFields, depthFields, depth]
    omega
  case h_7 | h_8 =>
    obtain ⟨m, hm, rfl⟩ := hk
    exact Method.depth_decode_le hm
  case h_9 | h_10 | h_11 | h_12 | h_13 | h_19 =>
    obtain ⟨type, htype, rfl⟩ := hk
    have htype := (TypeExpr.deepens_decode bound).required htype
    simp only [encodeFields, depthFields]
    omega
  case h_14 =>
    obtain ⟨fields, hfields, tag, _, rfl⟩ := hk
    have hfields := h.requiredList hfields
    rw [← Decl.encodeList_eq] at hfields
    simp only [encodeFields, depthFields, depth]
    omega
  case h_15 =>
    obtain ⟨type, htype, bitWidth, _, rfl⟩ := hk
    have htype := (TypeExpr.deepens_decode bound).required htype
    have hscalar := depth_encodeOption (fun n => .natural n.toNat) (fun _ => rfl) bitWidth
    simp only [encodeFields, depthFields, hscalar]
    omega
  case h_16 =>
    obtain ⟨integerType, hinteger, _, _, enumerators, henumerators, rfl⟩ := hk
    have hinteger := (TypeExpr.deepens_decode bound).optional hinteger
    have henumerators := h.defaultedList henumerators
    rw [← Decl.encodeList_eq] at henumerators
    simp only [encodeFields, depthFields, depth]
    omega
  case h_17 =>
    obtain ⟨value, _, rfl⟩ := hk
    have hscalar := depth_encodeOption Json.str (fun _ => rfl) value
    simp only [encodeFields, depthFields, hscalar]
    omega
  case h_18 =>
    obtain ⟨type, htype, params, hparams, _, _, _, _, rfl⟩ := hk
    have htype := (TypeExpr.deepens_decode bound).required htype
    have hparams := (Param.deepens_decode bound).defaultedList hparams
    simp only [encodeFields, depthFields, depth]
    omega
  case h_20 => cases hk

namespace Decl

/-- **A declaration is written at most one level deeper** if those inside it
are. -/
theorem depth_decodeFields_le {decl : Json → Except Fault Decl} (h : Deepens decl encode)
    {excess : Fault} {d : Decl} (hd : decodeFields decl excess bound fs = .ok d) :
    d.encode.depth ≤ depthFields fs + 2 := by
  simp only [decodeFields, bind_eq_ok_iff, pure_ok, Except.ok.injEq] at hd
  obtain ⟨usr, _, name, _, location, _, _, _, _, _, _, _, kind, _, k, hk, rfl⟩ := hd
  have hkind := DeclKind.depth_decode_le h hk
  have hlocation := depth_location_le location
  simp only [depth_encode_eq]
  omega

theorem deepens_decode : ∀ bound : Nat, Deepens (decode bound) encode
  | 0, _, _, hd => by cases hd
  | bound + 1, .obj fs, d, hd => depth_decodeFields_le (deepens_decode bound) hd

/-- **What is read at the top grows by one level at most.** -/
theorem deepens_decodeTop : Deepens decodeTop encode := by
  intro v d hd
  unfold decodeTop at hd
  split at hd
  · split at hd
    · cases hd
    · exact depth_decodeFields_le (deepens_decode nestingLimit) hd
  · cases hd

end Decl

/-- **A unit is written at most one level deeper** than what it was read
from. -/
theorem depth_of_decodeRoot {v : Json} {kind : String} {ds : List Decl}
    (h : decodeRoot v = .ok (kind, ds)) :
    (TranslationUnit.mk ds).encode.depth ≤ v.depth + 1 := by
  simp only [decodeRoot, bind_eq_ok_iff, pure_ok, Except.ok.injEq] at h
  obtain ⟨fs, hfs, _, _, kind', _, ds', hds, heq⟩ := h
  cases heq
  have hinside := depth_recordFields hfs
  have hitems := Decl.deepens_decodeTop.defaultedList hds
  simp only [TranslationUnit.depth_encode, Decl.encodeList_eq]
  omega

end ObjcBindings
