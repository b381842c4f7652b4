/-
  ObjcBindings.Proofs.NestingLimit
  ────────────────────────────────
  **WHAT IS WRITTEN IS READ BACK, OR NESTS TOO DEEP.**

  A plain value that is kept has one fault only, its depth.  At the top level a
  declaration's own fields have readers of their own and the payload of its
  kind is kept, so there, too, nothing but the depth decides.

      keepFault_of_plain  — the fault of a plain value
      decodeTop_encode    — a declaration at the top level
      read_compact_encode — a unit, from its text
-/
import ObjcBindings.Proofs.EncodedSchema

namespace ObjcBindings

open Text (Json Fault Document)
open Text.Json

/-! ## §1. Kept values. -/

namespace Text.Json

mutual

/-- A plain value has no fault but its depth. -/
theorem keepFault_of_plain : ∀ (v : Json) (limit : Nat), v.Plain →
    v.keepFault limit = if v.depth ≤ limit then none else some .malformed
  | .null, limit, _ => by cases limit <;> rfl
  | .bool _, limit, _ => by cases limit <;> rfl
  | .natural _, limit, _ => by cases limit <;> rfl
  | .str _, limit, _ => by cases limit <;> rfl
  | .arr items, 0, _ => rfl
  | .obj fields, 0, _ => rfl
  | .arr items, limit + 1, h => by
      rw [keepFault, keepFaultItems_of_plain items limit h, depth]
      simp only [Nat.add_le_add_iff_right]
  | .obj fields, limit + 1, h => by
      rw [keepFault, keepFaultFields_of_plain fields limit h, depth]
      simp only [Nat.add_le_add_iff_right]

theorem keepFaultItems_of_plain : ∀ (items : List Json) (limit : Nat), PlainItems items →
    keepFaultItems limit items = if depthItems items ≤ limit then none else some .malformed
  | [], limit, _ => rfl
  | item :: items, limit, h => by
      rw [keepFaultItems, keepFault_of_plain item limit h.1,
        keepFaultItems_of_plain items limit h.2, depthItems]
      by_cases hitem : item.depth ≤ limit <;> simp [hitem]

theorem keepFaultFields_of_plain : ∀ (fields : List (String × Json)) (limit : Nat),
    PlainFields fields →
    keepFaultFields limit fields = if depthFields fields ≤ limit then none else some .malformed
  | [], limit, _ => rfl
  | (name, value) :: fields, limit, h => by
      rw [keepFaultFields, keepFault_of_plain value limit h.1,
        keepFaultFields_of_plain fields limit h.2, depthFields]
      by_cases hvalue : value.depth ≤ limit <;> simp [hvalue]

end

/-- A field that its reader accepts is passed. -/
theorem scan_cons {known : String → Option (Json → Except Fault Unit)}
    {other : Json → Except Fault Unit} {seen : List String} {name : String} {value : Json}
    {read : Json → Except Fault Unit} {fields : List (String × Json)}
    (hknown : known name = some read) (hnew : name ∉ seen) (hread : read value = .ok ()) :
    scan known other seen ((name, value) :: fields) = scan known other (name :: seen) fields := by
  rw [scan, hknown]
  simp only [if_neg hnew, hread]

/-- Fields without a reader are kept one after the other. -/
theorem scan_keep {known : String → Option (Json → Except Fault Unit)} {limit : Nat}
    {seen : List String} {fields : List (String × Json)}
    (h : ∀ name ∈ fields.map Prod.fst, known name = none) :
    scan known (keep limit) seen fields
      = match keepFaultFields limit fields with
        | some fault => .error fault
        | none => .ok () := by
  induction fields with
  | nil => rfl
  | cons field fields ih =>
      have hfield := h field.1 List.mem_cons_self
      have hrest := ih fun name hname => h name (List.mem_cons_of_mem _ hname)
      rw [scan, hfield, keepFaultFields, keep]
      cases field.2.keepFault limit with
      | some fault => rfl
      | none => exact hrest

end Text.Json

/-! ## §2. Units. -/

/-- The kind and its payload are kept, everything else has a reader. -/
theorem Decl.ownField_eq_none (excess : Fault) {k : DeclKind} :
    ∀ name ∈ k.encodeFields.map Prod.fst, Decl.ownField excess name = none := by
  cases k <;> simp [DeclKind.encodeFields, Method.encodeFields, Decl.ownField]

/-- The fields that every declaration has nest less deep than a unit may. -/
theorem Decl.depth_encode_eq (d : Decl) :
    d.encode.depth = max (encodeOption Location.encode d.location).depth
      (depthFields d.kind.encodeFields) + 1 := by
  simp only [encode_eq, fields, depth, depthFields_append, depthFields]
  omega

theorem depth_location_le (o : Option Location) : (encodeOption Location.encode o).depth ≤ 1 := by
  cases o with
  | none => exact Nat.zero_le 1
  | some l =>
      obtain ⟨file, line⟩ := l
      cases line <;> simp [encodeOption, Location.encode, depth, depthFields]

/-- **A declaration at the top level is read back**, or nests too deep. -/
theorem Decl.decodeTop_encode (d : Decl) :
    Decl.decodeTop d.encode
      = if d.encode.depth ≤ nestingLimit - 2 then .ok d else .error .malformed := by
  have hlocation := depth_location_le d.location
  have hdepth := d.depth_encode_eq
  have hplain : PlainFields (("kind", .str d.kind.name) :: d.kind.encodeFields) :=
    ⟨trivial, DeclKind.plain_encodeFields fun c _ => c.plain_encode⟩
  have hunknown : ∀ name ∈ (("kind", Json.str d.kind.name) :: d.kind.encodeFields).map Prod.fst,
      Decl.ownField .malformed name = none :=
    List.forall_mem_cons.2 ⟨rfl, Decl.ownField_eq_none .malformed⟩
  have hplace : Json.discard (asOption (Location.decode .malformed))
      (encodeOption Location.encode d.location) = .ok () := by
    rw [Json.discard, asOption_location, Except.map]
  have hkind : depthFields (("kind", .str d.kind.name) :: d.kind.encodeFields)
      = depthFields d.kind.encodeFields := by
    simp [depthFields, depth]
  -- The scan before the decoding meets the limit first: its own fields are
  -- read, those of the kind are only kept.
  have hscan : scan (Decl.ownField .malformed) (keep (nestingLimit - 3)) [] d.fields
      = if d.encode.depth ≤ nestingLimit - 2 then .ok () else .error .malformed := by
    simp only [fields, List.cons_append, List.nil_append]
    rw [scan_cons rfl (by decide) rfl, scan_cons rfl (by decide) rfl,
      scan_cons rfl (by decide) hplace, scan_cons rfl (by decide) rfl,
      scan_cons rfl (by decide) rfl, scan_cons rfl (by decide) rfl, scan_keep hunknown,
      keepFaultFields_of_plain _ _ hplain, hkind, hdepth]
    -- A location is too shallow to matter.
    have hlimit : depthFields d.kind.encodeFields ≤ nestingLimit - 3
        ↔ max (encodeOption Location.encode d.location).depth
            (depthFields d.kind.encodeFields) + 1 ≤ nestingLimit - 2 := by
      simp only [nestingLimit]
      omega
    by_cases h : depthFields d.kind.encodeFields ≤ nestingLimit - 3
    · simp only [if_pos h, if_pos (hlimit.1 h)]
    · simp only [if_neg h, if_neg (mt hlimit.2 h)]
  by_cases h : d.encode.depth ≤ nestingLimit - 2
  · -- What is not too deep as a whole has parts that are read with room to spare.
    have hfields : Decl.decodeFields (Decl.decode nestingLimit) .malformed nestingLimit d.fields
        = .ok d := by
      have hkind := d.depth_kind_lt
      simp only [nestingLimit] at h ⊢
      refine decodeFields_fields .malformed d ?_ ?_
      · intro c hc
        have hlt := DeclKind.depth_inner_lt hc
        exact c.decode_encode _ (by omega)
      · intro t ht
        have hle := DeclKind.depth_types_le ht
        exact t.decode_encode _ (by omega)
    rw [if_pos h] at hscan ⊢
    rw [encode_eq, decodeTop, hscan]
    exact hfields
  · rw [if_neg h] at hscan ⊢
    rw [encode_eq, decodeTop, hscan]

/-- **The declarations of a unit are read back**, or one nests too deep. -/
theorem mapItems_decodeTop (ds : List Decl) :
    mapItems Decl.decodeTop (Decl.encodeList ds)
      = if depthItems (Decl.encodeList ds) ≤ nestingLimit - 2 then .ok ds
        else .error .malformed := by
  induction ds with
  | nil => rfl
  | cons d ds ih =>
      rw [Decl.encodeList, mapItems, d.decodeTop_encode, ih, depthItems]
      by_cases hd : d.encode.depth ≤ nestingLimit - 2
      · by_cases hds : depthItems (Decl.encodeList ds) ≤ nestingLimit - 2 <;>
          simp [hd, hds, Except.map]
      · simp [hd]

theorem TranslationUnit.depth_encode (unit : TranslationUnit) :
    unit.encode.depth = depthItems (Decl.encodeList unit.children) + 2 := by
  simp [encode, depth, depthFields]

/-- **A unit is read back**, or nests too deep. -/
theorem TranslationUnit.decodeRoot_encode (unit : TranslationUnit) :
    decodeRoot unit.encode
      = if unit.encode.depth ≤ nestingLimit then .ok ("TranslationUnit", unit.children)
        else .error .malformed := by
  have hitems := mapItems_decodeTop unit.children
  rw [depth_encode]
  by_cases h : depthItems (Decl.encodeList unit.children) ≤ nestingLimit - 2
  · have hlimit : depthItems (Decl.encodeList unit.children) + 2 ≤ nestingLimit := by
      simp only [nestingLimit] at h ⊢
      omega
    rw [if_pos h] at hitems
    rw [if_pos hlimit]
    simp [decodeRoot, encode, scan, Json.discard, asList, hitems, Except.map]
  · have hlimit : ¬ depthItems (Decl.encodeList unit.children) + 2 ≤ nestingLimit := by
      simp only [nestingLimit] at h ⊢
      omega
    rw [if_neg h] at hitems
    rw [if_neg hlimit]
    simp [decodeRoot, encode, scan, Json.discard, asList, hitems, Except.map]

/-- **What is written is read back**, or nests too deep. -/
theorem TranslationUnit.read_compact_encode (unit : TranslationUnit) :
    read (compact unit.encode)
      = if unit.encode.depth ≤ nestingLimit then .ok unit else .error (.json .malformed) := by
  rw [read, Json.read_compact unit.plain_encode, ofDocument, Document.decode, decodeRoot_encode]
  by_cases h : unit.encode.depth ≤ nestingLimit
  · simp [h]
  · simp [h]

end ObjcBindings
