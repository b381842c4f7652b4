/-
  ObjcBindings.Proofs.Crossing
  ────────────────────────────────
  **WHICH TYPES CROSS, SAID WITHOUT A MEMORY.**

  `Crosses s use t` is the least relation closed under the rules for types: no
  memory, no room, no order of questions.  A derivation is finite, so a record
  that holds itself by value does not cross:

    • `Crosses.acc` — below a type that crosses, every chain of types that it
      needs ends,
    • `not_crosses_of_cycle` — so a type that needs itself does not cross,
    • `Blames.not_crosses` — nor does one that needs a type whose examination
      fails.

  These facts are what makes provisional answers harmless; the exactness of
  the remembered answers is proved from them elsewhere.
-/
import ObjcBindings.Interop.Fitness
import Mathlib.Logic.Relation

namespace ObjcBindings

open Relation (ReflTransGen TransGen)

/-! ## §1. The rules. -/

/-- A member of a record that is a field without a bit width. -/
def Decl.IsPlainField (f : Decl) : Prop :=
  ∃ type, f.kind = .field type none

/-- A message send carries values of the type: those of a parameter, or a
result that is not `void`. -/
inductive Method.Carries (m : Method) : TypeExpr → Prop where
  | param {p : Param} (param : p ∈ m.params) : Carries m p.type
  | result (valued : m.result.stripWrappers ≠ .builtin "Void") : Carries m m.result

namespace Scope

/-- Values of the type, or pointers to it, can cross a message send. -/
inductive Crosses (s : Scope) : Use → TypeExpr → Prop where
  | wrapped {use : Use} {w : Wrapper} {inner : TypeExpr} (below : Crosses s use inner) :
      Crosses s use (.wrapped w inner)
  | primitive {use : Use} {name : String} {p : Primitive} {rust : String}
      (known : Primitive.ofName name = .ok p) (sized : p ≠ .void)
      (spelled : p.rustName? = some rust) : Crosses s use (.builtin name)
  | void : Crosses s .pointee (.builtin "Void")
  | idiom {use : Use} {name : String} {usr : Usr} {d : Decl} {type : TypeExpr}
      (found : s.typedef usr = .ok (d, type)) (isIdiom : (Idiom.detect? d.name type).isSome) :
      Crosses s use (.typedef name usr)
  | typedef {use : Use} {name : String} {usr : Usr} {d : Decl} {type : TypeExpr}
      (found : s.typedef usr = .ok (d, type)) (plain : Idiom.detect? d.name type = none)
      (below : Crosses s use type) : Crosses s use (.typedef name usr)
  | selector {use : Use} {pointee : TypeExpr}
      (shape : (TypeExpr.pointer pointee).isSelShape = true) : Crosses s use (.pointer pointee)
  | pointer {use : Use} {pointee : TypeExpr} (below : Crosses s .pointee pointee) :
      Crosses s use (.pointer pointee)
  | decayed {use : Use} {pointee : TypeExpr} (below : Crosses s .pointee pointee) :
      Crosses s use (.decayed pointee)
  | object {use : Use} {pointee : TypeExpr} (shape : pointee.stripWrappers.isObject = true) :
      Crosses s use (.objectPointer pointee)
  | behind {usr : Usr} {d : Decl} {fields : List Decl} {tag : TagKind}
      (found : s.record usr = .ok (d, fields, tag)) (tagged : tag ≠ .union) :
      Crosses s .pointee (.record usr)
  | record {usr : Usr} {d : Decl} {fields : List Decl} {tag : TagKind}
      (found : s.record usr = .ok (d, fields, tag)) (tagged : tag ≠ .union)
      (full : fields ≠ []) (plain : ∀ f ∈ fields, f.IsPlainField)
      (below : ∀ t ∈ fieldTypes fields, Crosses s .value t) : Crosses s .value (.record usr)
  | enum {use : Use} {usr : Usr} {d : Decl} {integerType : TypeExpr} {e : Decl}
      {es : List Decl} (found : s.enum usr = .ok (d, some integerType, e :: es))
      (below : Crosses s .value integerType) : Crosses s use (.enum usr)
  | array {use : Use} {element : TypeExpr} {size : UInt64}
      (below : Crosses s .value element) : Crosses s use (.constantArray element size)

/-- All that a send of the method carries crosses, and is not too much. -/
structure Binds (s : Scope) (m : Method) : Prop where
  fixed : m.isVariadic = false
  few : m.params.length ≤ 12
  crosses : ∀ t, m.Carries t → s.Crosses .value t

end Scope

/-! ## §2. The rules read backwards. -/

/-- The builtin `Void` is the only type that is `void`. -/
theorem TypeExpr.isVoid_iff {t : TypeExpr} : t.isVoid = true ↔ t = .builtin "Void" := by
  cases t <;> simp [isVoid]

/-- The types that are examined for a method are those that it carries. -/
theorem Method.mem_crossing_iff {m : Method} {t : TypeExpr} : t ∈ m.crossing ↔ m.Carries t := by
  unfold crossing
  rw [List.mem_append]
  constructor
  · rintro (ht | ht)
    · split at ht
      · cases ht
      · next hvalued =>
        obtain rfl := List.mem_singleton.1 ht
        exact .result fun hvoid => hvalued (TypeExpr.isVoid_iff.2 hvoid)
    · obtain ⟨p, hp, rfl⟩ := List.mem_map.1 ht
      exact .param hp
  · rintro (hp | hvalued)
    · exact .inr (List.mem_map_of_mem hp)
    · rw [if_neg fun hvoid => hvalued (TypeExpr.isVoid_iff.1 hvoid)]
      exact .inl List.mem_cons_self

/-- What a send carries is one of the signature's types. -/
theorem Method.Carries.mem_types {m : Method} {t : TypeExpr} (h : m.Carries t) : t ∈ m.types := by
  cases h with
  | param hp => exact List.mem_cons_of_mem _ (List.mem_map_of_mem hp)
  | result _ => exact List.mem_cons_self

namespace Scope

variable {s : Scope} {use : Use}

theorem crosses_wrapped_iff {w : Wrapper} {t : TypeExpr} :
    s.Crosses use (.wrapped w t) ↔ s.Crosses use t :=
  ⟨fun h => by cases h; assumption, .wrapped⟩

/-- A primitive crosses if it has a counterpart. -/
theorem crosses_builtin_iff {name : String} (h : ¬ (use = .pointee ∧ name = "Void")) :
    s.Crosses use (.builtin name) ↔ primitiveFits name = .ok true := by
  constructor
  · intro hc
    cases hc with
    | primitive known sized spelled => simp [primitiveFits, known, sized, spelled]
    | void => exact absurd ⟨rfl, rfl⟩ h
  · intro hp
    unfold primitiveFits at hp
    split at hp
    · cases hp
    · next p known =>
      injection hp with hp
      obtain ⟨sized, spelled⟩ := Bool.and_eq_true_iff.1 hp
      obtain ⟨rust, hr⟩ := Option.isSome_iff_exists.1 spelled
      exact .primitive known (of_decide_eq_true sized) hr

/-- A plain typedef crosses if its type does. -/
theorem crosses_typedef_iff {name : String} {usr : Usr} {d : Decl} {type : TypeExpr}
    (found : s.typedef usr = .ok (d, type)) (plain : Idiom.detect? d.name type = none) :
    s.Crosses use (.typedef name usr) ↔ s.Crosses use type := by
  refine ⟨fun h => ?_, .typedef found plain⟩
  cases h with
  | idiom found' isIdiom =>
      rw [found] at found'
      cases found'
      simp [plain] at isIdiom
  | typedef found' _ below =>
      rw [found] at found'
      cases found'
      exact below

/-- A pointer crosses if what it leads to may stand behind one. -/
theorem crosses_pointer_iff {pointee : TypeExpr}
    (shape : ¬ (TypeExpr.pointer pointee).isSelShape = true) :
    s.Crosses use (.pointer pointee) ↔ s.Crosses .pointee pointee := by
  refine ⟨fun h => ?_, .pointer⟩
  cases h with
  | selector shape' => exact absurd shape' shape
  | pointer below => exact below

theorem crosses_decayed_iff {pointee : TypeExpr} :
    s.Crosses use (.decayed pointee) ↔ s.Crosses .pointee pointee :=
  ⟨fun h => by cases h; assumption, .decayed⟩

/-- An object pointer crosses if it leads to an object type. -/
theorem crosses_objectPointer_iff {pointee : TypeExpr} :
    s.Crosses use (.objectPointer pointee) ↔ pointee.stripWrappers.isObject = true :=
  ⟨fun h => by cases h; assumption, .object⟩

/-- Any record but a union may stand behind a pointer. -/
theorem crosses_pointee_record_iff {usr : Usr} {d : Decl} {fields : List Decl} {tag : TagKind}
    (found : s.record usr = .ok (d, fields, tag)) :
    s.Crosses .pointee (.record usr) ↔ tag ≠ .union := by
  refine ⟨fun h => ?_, .behind found⟩
  cases h with
  | behind found' tagged =>
      rw [found] at found'
      cases found'
      exact tagged

/-- A record crosses if it has fields, and only plain ones that cross. -/
theorem crosses_record_iff {usr : Usr} {d : Decl} {fields : List Decl} {tag : TagKind}
    (found : s.record usr = .ok (d, fields, tag)) :
    s.Crosses .value (.record usr) ↔ tag ≠ .union ∧ fields ≠ [] ∧
      (∀ f ∈ fields, f.IsPlainField) ∧ ∀ t ∈ fieldTypes fields, s.Crosses .value t := by
  refine ⟨fun h => ?_, fun ⟨h₁, h₂, h₃, h₄⟩ => .record found h₁ h₂ h₃ h₄⟩
  cases h with
  | record found' tagged full plain below =>
      rw [found] at found'
      cases found'
      exact ⟨tagged, full, plain, below⟩

/-- An enum crosses if its integer type does. -/
theorem crosses_enum_iff {usr : Usr} {d : Decl} {integerType : TypeExpr} {e : Decl}
    {es : List Decl} (found : s.enum usr = .ok (d, some integerType, e :: es)) :
    s.Crosses use (.enum usr) ↔ s.Crosses .value integerType := by
  refine ⟨fun h => ?_, .enum found⟩
  cases h with
  | enum found' below =>
      rw [found] at found'
      cases found'
      exact below

/-- An array crosses if its elements do. -/
theorem crosses_array_iff {element : TypeExpr} {size : UInt64} :
    s.Crosses use (.constantArray element size) ↔ s.Crosses .value element :=
  ⟨fun h => by cases h; assumption, .array⟩

/-! ## §3. A type that crosses needs no circle. -/

/-- The crossing of the second needs that of the first. -/
inductive NeededFor (s : Scope) : Use × TypeExpr → Use × TypeExpr → Prop where
  | wrapped {use : Use} {w : Wrapper} {inner : TypeExpr} :
      NeededFor s (use, inner) (use, .wrapped w inner)
  | typedef {use : Use} {name : String} {usr : Usr} {d : Decl} {type : TypeExpr}
      (found : s.typedef usr = .ok (d, type)) (plain : Idiom.detect? d.name type = none) :
      NeededFor s (use, type) (use, .typedef name usr)
  | pointer {use : Use} {pointee : TypeExpr}
      (shape : ¬ (TypeExpr.pointer pointee).isSelShape = true) :
      NeededFor s (.pointee, pointee) (use, .pointer pointee)
  | decayed {use : Use} {pointee : TypeExpr} :
      NeededFor s (.pointee, pointee) (use, .decayed pointee)
  | record {usr : Usr} {d : Decl} {fields : List Decl} {tag : TagKind} {t : TypeExpr}
      (found : s.record usr = .ok (d, fields, tag)) (inside : t ∈ fieldTypes fields) :
      NeededFor s (.value, t) (.value, .record usr)
  | enum {use : Use} {usr : Usr} {d : Decl} {integerType : TypeExpr} {e : Decl}
      {es : List Decl} (found : s.enum usr = .ok (d, some integerType, e :: es)) :
      NeededFor s (.value, integerType) (use, .enum usr)
  | array {use : Use} {element : TypeExpr} {size : UInt64} :
      NeededFor s (.value, element) (use, .constantArray element size)

/-- **Below a type that crosses, every chain of needed types ends.** -/
theorem Crosses.acc {t : TypeExpr} (h : s.Crosses use t) : Acc s.NeededFor (use, t) := by
  -- Every needed type is one that the rule for the type asks for.
  induction h with
  | wrapped _ ih => exact ⟨_, fun y hy => by cases hy; exact ih⟩
  | primitive _ _ _ => exact ⟨_, fun y hy => by cases hy⟩
  | void => exact ⟨_, fun y hy => by cases hy⟩
  | idiom found isIdiom =>
      refine ⟨_, fun y hy => ?_⟩
      cases hy with
      | typedef found' plain =>
          rw [found] at found'
          cases found'
          simp [plain] at isIdiom
  | typedef found _ _ ih =>
      refine ⟨_, fun y hy => ?_⟩
      cases hy with
      | typedef found' _ =>
          rw [found] at found'
          cases found'
          exact ih
  | selector shape =>
      refine ⟨_, fun y hy => ?_⟩
      cases hy with
      | pointer shape' => exact absurd shape shape'
  | pointer _ ih => exact ⟨_, fun y hy => by cases hy; exact ih⟩
  | decayed _ ih => exact ⟨_, fun y hy => by cases hy; exact ih⟩
  | object _ => exact ⟨_, fun y hy => by cases hy⟩
  | behind _ _ => exact ⟨_, fun y hy => by cases hy⟩
  | record found _ _ _ _ ih =>
      refine ⟨_, fun y hy => ?_⟩
      cases hy with
      | record found' inside =>
          rw [found] at found'
          cases found'
          exact ih _ inside
  | enum found _ ih =>
      refine ⟨_, fun y hy => ?_⟩
      cases hy with
      | enum found' =>
          rw [found] at found'
          cases found'
          exact ih
  | array _ ih => exact ⟨_, fun y hy => by cases hy; exact ih⟩

/-- What a type that crosses needs, crosses. -/
theorem Crosses.of_needed {x y : Use × TypeExpr} (h : s.Crosses x.1 x.2)
    (hy : s.NeededFor y x) : s.Crosses y.1 y.2 := by
  cases hy with
  | wrapped => exact crosses_wrapped_iff.1 h
  | typedef found plain => exact (crosses_typedef_iff found plain).1 h
  | pointer shape => exact (crosses_pointer_iff shape).1 h
  | decayed => exact crosses_decayed_iff.1 h
  | record found inside => exact ((crosses_record_iff found).1 h).2.2.2 _ inside
  | enum found => exact (crosses_enum_iff found).1 h
  | array => exact crosses_array_iff.1 h

/-- Whatever the second type is used as, it needs the first in some use. -/
def Inside (s : Scope) (t' t : TypeExpr) : Prop :=
  ∀ use, ∃ use', s.NeededFor (use', t') (use, t)

/-- Where every chain of needed types ends, so does every chain of types inside
each other. -/
theorem acc_inside_of_acc {x : Use × TypeExpr} (h : Acc s.NeededFor x) : Acc s.Inside x.2 := by
  induction h with
  | intro x _ ih =>
      refine ⟨x.2, fun t' ht' => ?_⟩
      obtain ⟨use', hn⟩ := ht' x.1
      exact ih (use', t') hn

end Scope

/-- Where every descending chain ends, nothing stands below itself. -/
theorem not_transGen_self_of_acc {α : Type} {r : α → α → Prop} {a : α} (h : Acc r a) :
    ¬ TransGen r a a := by
  replace h := h.transGen
  induction h with
  | intro x _ ih =>
      intro hx
      exact ih x hx hx

/-- **A type that needs itself does not cross.** -/
theorem Scope.not_crosses_of_cycle {s : Scope} {use : Use} {t : TypeExpr}
    (h : TransGen s.NeededFor (use, t) (use, t)) : ¬ s.Crosses use t :=
  fun hc => not_transGen_self_of_acc hc.acc h

/-! ## §4. Failures. -/

namespace Scope

/-- The type itself makes an examination fail. -/
inductive Fails (s : Scope) : Use × TypeExpr → Failure → Prop where
  | primitive {use : Use} {name : String} {e : Failure}
      (sized : ¬ (use = .pointee ∧ name = "Void")) (unknown : Primitive.ofName name = .error e) :
      Fails s (use, .builtin name) e
  | typedef {use : Use} {name : String} {usr : Usr} {e : Failure}
      (missing : s.typedef usr = .error e) : Fails s (use, .typedef name usr) e
  | record {use : Use} {usr : Usr} {e : Failure} (missing : s.record usr = .error e) :
      Fails s (use, .record usr) e
  | enum {use : Use} {usr : Usr} {e : Failure} (missing : s.enum usr = .error e) :
      Fails s (use, .enum usr) e
  | circularTypedef {use : Use} {name : String} {usr : Usr}
      (circle : TransGen s.Inside (.typedef name usr) (.typedef name usr)) :
      Fails s (use, .typedef name usr) (.circular usr)
  | circularEnum {use : Use} {usr : Usr} (circle : TransGen s.Inside (.enum usr) (.enum usr)) :
      Fails s (use, .enum usr) (.circular usr)

/-- A type that is needed makes the examination fail. -/
def Blames (s : Scope) (x : Use × TypeExpr) (e : Failure) : Prop :=
  ∃ y, ReflTransGen s.NeededFor y x ∧ s.Fails y e

variable {s : Scope} {x y : Use × TypeExpr} {e : Failure}

/-- A type that fails by itself is to blame. -/
theorem Fails.blames (h : s.Fails x e) : s.Blames x e :=
  ⟨x, .refl, h⟩

/-- What is to blame for a type is to blame for all that need it. -/
theorem Blames.of_needed (h : s.Blames y e) (hy : s.NeededFor y x) : s.Blames x e := by
  obtain ⟨z, hz, hfails⟩ := h
  exact ⟨z, hz.tail hy, hfails⟩

/-- A type that fails by itself does not cross. -/
theorem Fails.not_crosses (h : s.Fails x e) : ¬ s.Crosses x.1 x.2 := by
  intro hc
  cases h with
  | primitive sized unknown =>
      have hfits := (crosses_builtin_iff sized).1 hc
      simp [primitiveFits, unknown] at hfits
  | typedef missing =>
      cases hc with
      | idiom found _ => rw [missing] at found; cases found
      | typedef found _ _ => rw [missing] at found; cases found
  | record missing =>
      cases hc with
      | behind found _ => rw [missing] at found; cases found
      | record found _ _ _ _ => rw [missing] at found; cases found
  | enum missing =>
      cases hc with
      | enum found _ => rw [missing] at found; cases found
  | circularTypedef circle => exact not_transGen_self_of_acc (acc_inside_of_acc hc.acc) circle
  | circularEnum circle => exact not_transGen_self_of_acc (acc_inside_of_acc hc.acc) circle

/-- **A type whose examination fails does not cross.** -/
theorem Blames.not_crosses (h : s.Blames x e) : ¬ s.Crosses x.1 x.2 := by
  obtain ⟨y, hy, hfails⟩ := h
  -- The crossing is handed down the chain to the type that fails.
  induction hy with
  | refl => exact hfails.not_crosses
  | tail _ step ih => exact fun hc => ih (hc.of_needed step)

end Scope

end ObjcBindings
