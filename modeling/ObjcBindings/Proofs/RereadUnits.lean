/-
  ObjcBindings.Proofs.RereadUnits
  ────────────────────────────────
  **A UNIT THAT IS WRITTEN IS READ BACK, UP TO THE NESTING LIMIT.**

  Writing fills in every default, so what is written may nest one level deeper
  than the text it was read from: an empty list that a type at the limit leaves
  out is written inside the type, beyond the limit.

      reread_written  — reading, writing and reading again
      deep_not_reread — a unit that is read, but not read again
-/
import ObjcBindings.Proofs.FilledDefaults

namespace ObjcBindings

open Text (Json Fault Document)
open Text.Json

/-! ## §1. Reading, writing and reading again. -/

namespace TranslationUnit

/-- What a text is read as is written at most one level deeper. -/
theorem depth_of_read {text : String} {unit : TranslationUnit} (h : read text = .ok unit) :
    unit.encode.depth ≤ (Json.read text).root.depth + 1 := by
  unfold read ofDocument at h
  split at h
  · cases h
  · next kind children hdocument =>
    split at h
    · cases h
      unfold Document.decode at hdocument
      split at hdocument
      · cases hdocument
      · cases hdocument
      · next hroot _ =>
        cases hdocument
        exact depth_of_decodeRoot hroot
    · cases h

/-- **Reading undoes writing.**  Every unit is read back from its text, unless
that nests too deep; so a text that is read as a unit and nests less deep than
the limit gives the same unit when that is written and read again. -/
theorem reread_written :
    (∀ unit : TranslationUnit, read (compact unit.encode)
      = if unit.encode.depth < 128 then .ok unit else .error (.json .malformed)) ∧
    (∀ (text : String) (unit : TranslationUnit), read text = .ok unit →
      (Json.read text).root.depth < 127 → read (compact unit.encode) = .ok unit) := by
  have hread : ∀ unit : TranslationUnit, read (compact unit.encode)
      = if unit.encode.depth < 128 then .ok unit else .error (.json .malformed) := by
    intro unit
    rw [read_compact_encode, nestingLimit]
    simp only [Nat.lt_succ_iff]
  refine ⟨hread, fun text unit h hdepth => ?_⟩
  have hwritten := depth_of_read h
  rw [hread, if_pos (by omega)]

/-- A dump with an older name for the kind, fields in another order, a field
that nobody reads, and most fields left out. -/
def terseDump : Json :=
  .obj [("children", .arr [
      .obj [("line_count", .natural 3), ("kind", .str "Interface"), ("usr", .str "c:Box"),
        ("type_params", .arr [.str "Item"]),
        ("children", .arr [
          .obj [("return_type", .obj [("type_class", .str "ObjCInterface")]),
            ("params", .arr []), ("is_instance_method", .bool true), ("selector", .str "item"),
            ("usr", .str "c:item"), ("kind", .str "Method")]])]]),
    ("kind", .str "TranslationUnit")]

/-- What the dump is read as. -/
def boxUnit : TranslationUnit :=
  ⟨[⟨"c:Box", "", none, false, false, false,
    .interface
      [⟨"c:item", "", none, false, false, false,
        .method ⟨"item", true, [], .object none none [] [], false, none, none, ⟨false, false⟩⟩⟩]
      [] none ["Item"]⟩]⟩

/-- The dump is not the text of the unit, but the unit comes back from that. -/
theorem box_reread_written :
    read (compact terseDump) = .ok boxUnit ∧ terseDump ≠ boxUnit.encode ∧
      read (compact boxUnit.encode) = .ok boxUnit := by
  have hplain : terseDump.Plain := by simp [terseDump, Plain, PlainFields, PlainItems]
  have hread : read (compact terseDump) = .ok boxUnit := by
    rw [read, Json.read_compact hplain]
    rfl
  have hdepth : (Json.read (compact terseDump)).root.depth < 127 := by
    rw [Json.read_compact hplain]
    decide
  exact ⟨hread, by simp [terseDump, encode], reread_written.2 _ _ hread hdepth⟩

/-! ## §2. A unit at the limit. -/

/-- A pointer to a pointer and so on, as JSON with nothing left to fill in. -/
def pointersDump : Nat → Json → Json
  | 0, pointee => pointee
  | n + 1, pointee =>
      .obj [("type_class", .str "Pointer"), ("pointee", pointersDump n pointee)]

/-- The type that this is. -/
def pointers : Nat → TypeExpr → TypeExpr
  | 0, pointee => pointee
  | n + 1, pointee => .pointer (pointers n pointee)

/-- Pointers around a plain dump are plain. -/
theorem plain_pointersDump {v : Json} (h : v.Plain) : ∀ n, (pointersDump n v).Plain
  | 0 => h
  | n + 1 => ⟨trivial, plain_pointersDump h n, trivial⟩

/-- Each pointer is one level. -/
theorem depth_pointersDump (v : Json) : ∀ n, (pointersDump n v).depth = v.depth + n
  | 0 => rfl
  | n + 1 => by
      have hdepth := depth_pointersDump v n
      simp only [pointersDump, depth, depthFields]
      omega

/-- Pointers are written around what they lead to. -/
theorem encode_pointers (t : TypeExpr) : ∀ n, (pointers n t).encode = pointersDump n t.encode
  | 0 => rfl
  | n + 1 => by
      rw [pointers, TypeExpr.encode, encode_pointers t n, TypeExpr.tagged, pointersDump]

/-- Pointers are read back with as much more room. -/
theorem decode_pointersDump {v : Json} {t : TypeExpr} {bound : Nat}
    (h : TypeExpr.decode bound v = .ok t) :
    ∀ n, TypeExpr.decode (bound + n) (pointersDump n v) = .ok (pointers n t)
  | 0 => h
  | n + 1 => by
      have hpointee := decode_pointersDump h n
      simp [TypeExpr.decode, pointersDump, pointers, TypeExpr.split,
        TypeExpr.decodeBody, hpointee, Except.map]

/-- A unit of one typedef, with nothing but what it needs. -/
def typedefDump (type : Json) : Json :=
  .obj [("kind", .str "TranslationUnit"), ("children", .arr [
    .obj [("usr", .str "c:T"), ("kind", .str "Typedef"), ("type", type)]])]

/-- What the dump is read as. -/
def typedefUnit (type : TypeExpr) : TranslationUnit :=
  ⟨[⟨"c:T", "", none, false, false, false, .typedef type⟩]⟩

/-- A typedef whose type fits is read back. -/
theorem read_typedefDump {v : Json} {t : TypeExpr} (hplain : v.Plain)
    (hdepth : v.depth ≤ nestingLimit - 3) (ht : TypeExpr.decode nestingLimit v = .ok t) :
    read (compact (typedefDump v)) = .ok (typedefUnit t) := by
  have hunit : (typedefDump v).Plain :=
    ⟨trivial, ⟨⟨trivial, trivial, hplain, trivial⟩, trivial⟩, trivial⟩
  have hkeep : keep (nestingLimit - 3) v = .ok () := by
    rw [keep, keepFault_of_plain v _ hplain, if_pos hdepth]
  have hkind : keep (nestingLimit - 3) (.str "Typedef") = .ok () := rfl
  have hscan : scan (Decl.ownField .malformed) (keep (nestingLimit - 3)) []
      [("usr", .str "c:T"), ("kind", .str "Typedef"), ("type", v)] = .ok () := by
    rw [scan_cons rfl (by decide) rfl]
    simp [scan, Decl.ownField, hkind, hkeep]
  have hdecl : Decl.decodeTop (.obj [("usr", .str "c:T"), ("kind", .str "Typedef"), ("type", v)])
      = .ok ⟨"c:T", "", none, false, false, false, .typedef t⟩ := by
    rw [Decl.decodeTop, hscan]
    simp [Decl.decodeFields, DeclKind.decode, Json.defaulted, Json.optional, ht]
  rw [read, Json.read_compact hunit]
  simp [ofDocument, Document.decode, typedefDump, typedefUnit, decodeRoot, scan, Json.discard,
    asList, mapItems, hdecl, Except.map]

/-- **At the limit a unit is lost by writing it**: its text holds lists that the
text it was read from leaves out. -/
theorem deep_not_reread :
    read (compact (typedefDump (pointersDump 123 (.obj [("type_class", .str "ObjCObject")]))))
      = .ok (typedefUnit (pointers 123 (.object none none [] []))) ∧
    read (compact (typedefUnit (pointers 123 (.object none none [] []))).encode)
      = .error (.json .malformed) := by
  constructor
  · have hplain : (Json.obj [("type_class", .str "ObjCObject")]).Plain := ⟨trivial, trivial⟩
    refine read_typedefDump (plain_pointersDump hplain 123) ?_ ?_
    · rw [depth_pointersDump]
      decide
    · have hobject : TypeExpr.decode 4 (.obj [("type_class", .str "ObjCObject")])
          = .ok (.object none none [] []) := rfl
      exact decode_pointersDump hobject 123
  · have hdepth : (typedefUnit (pointers 123 (.object none none [] []))).encode.depth = 128 := by
      simp [depth_encode, typedefUnit, Decl.encodeList, Decl.depth_encode_eq,
        DeclKind.encodeFields, encode_pointers, depthItems, depthFields, depth_pointersDump]
      decide
    rw [read_compact_encode, hdepth]
    rfl

end TranslationUnit

end ObjcBindings
