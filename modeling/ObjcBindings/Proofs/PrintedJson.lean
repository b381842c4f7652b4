/-
  ObjcBindings.Proofs.PrintedJson
  ────────────────────────────────
  **THE READER UNDOES THE PRINTER.**

  A value is plain if a text can say it and a reader can keep it: no cuts, no
  unreadable scalars, and numbers as digits of at most 64 bits.  What the
  printer writes for a plain value the machine reads back, whatever is open
  around it and whatever follows, as long as that cannot go on a number.

      readStringFrom_escaped — a string, character by character
      readNumber_toDigits    — a number
      run_compact            — a value in the middle of a text
      read_compact           — a whole text
-/
import Mathlib
import ObjcBindings.Text.Json.Printer
import ObjcBindings.Text.Json.Reader

namespace ObjcBindings.Text.Json

/-! ## §1. Plain values. -/

mutual

/-- The value has a text, and the text has this value. -/
def Plain : Json → Prop
  | .null | .bool _ | .str _ => True
  | .natural n => n < 2 ^ 64
  | .arr items => PlainItems items
  | .obj fields => PlainFields fields
  | .number _ | .unreadable | .cut _ => False

/-- Every item is plain. -/
def PlainItems : List Json → Prop
  | [] => True
  | item :: items => Plain item ∧ PlainItems items

/-- Every field is plain. -/
def PlainFields : List (String × Json) → Prop
  | [] => True
  | (_, value) :: fields => Plain value ∧ PlainFields fields

end

/-! ## §2. Strings. -/

/-- A hexadecimal digit is read back. -/
theorem hexValue?_hexDigit {n : Nat} (h : n < 16) : hexValue? (hexDigit n) = some n := by
  have hall : ∀ n < 16, hexValue? (hexDigit n) = some n := by decide
  exact hall n h

/-- The four digits of a control character. -/
theorem readHex4_control {n : Nat} (h : n < 0x20) (cs : List Char) :
    readHex4 ('0' :: '0' :: hexDigit (n / 16) :: hexDigit (n % 16) :: cs) = .ok (n, cs) := by
  have hzero : hexValue? '0' = some 0 := by decide
  have hhigh : hexValue? (hexDigit (n / 16)) = some (n / 16) := hexValue?_hexDigit (by omega)
  have hlow : hexValue? (hexDigit (n % 16)) = some (n % 16) := hexValue?_hexDigit (by omega)
  simp only [readHex4, hzero, hhigh, hlow, Except.ok.injEq, Prod.mk.injEq, and_true]
  omega

/-- The escape of a control character. -/
theorem readEscape_control {c : Char} (h : c.toNat < 0x20) (cs : List Char) :
    readEscape ('u' :: '0' :: '0' :: hexDigit (c.toNat / 16) :: hexDigit (c.toNat % 16) :: cs)
      = .ok (some c, cs) := by
  have hhigh : isHighSurrogate c.toNat = false := by
    simp only [isHighSurrogate, Bool.and_eq_false_iff, decide_eq_false_iff_not]
    omega
  have hlow : isLowSurrogate c.toNat = false := by
    simp only [isLowSurrogate, Bool.and_eq_false_iff, decide_eq_false_iff_not]
    omega
  simp [readEscape, readHex4_control h, hhigh, hlow, Char.ofNat_toNat]

/-- What an escape stands for is read in its place. -/
theorem readStringFrom_escape {acc : List Char} {paired : Bool} (body : List Char)
    {cs : List Char} {c : Char} (h : readEscape (body ++ cs) = .ok (some c, cs)) :
    readStringFrom acc paired ('\\' :: (body ++ cs)) = readStringFrom (c :: acc) paired cs := by
  rw [readStringFrom]
  simp [h]

/-- A character is read back from the form it has inside a string. -/
theorem readStringFrom_escapeChar (acc : List Char) (paired : Bool) (c : Char) (cs : List Char) :
    readStringFrom acc paired (escapeChar c ++ cs) = readStringFrom (c :: acc) paired cs := by
  unfold escapeChar
  split
  · next h => subst h; exact readStringFrom_escape ['"'] rfl
  split
  · next h => subst h; exact readStringFrom_escape ['\\'] rfl
  split
  · next h => subst h; exact readStringFrom_escape ['b'] rfl
  split
  · next h => subst h; exact readStringFrom_escape ['f'] rfl
  split
  · next h => subst h; exact readStringFrom_escape ['n'] rfl
  split
  · next h => subst h; exact readStringFrom_escape ['r'] rfl
  split
  · next h => subst h; exact readStringFrom_escape ['t'] rfl
  split
  · next h => exact readStringFrom_escape _ (readEscape_control h cs)
  · next hquote hbackslash _ _ _ _ _ hcontrol =>
    rw [List.singleton_append, readStringFrom]
    simp [hquote, hbackslash, hcontrol]

/-- The rest of a string is read back, up to its closing quote. -/
theorem readStringFrom_escaped (acc : List Char) (cs rest : List Char) :
    readStringFrom acc true (cs.flatMap escapeChar ++ '"' :: rest)
      = .ok (some (String.ofList (acc.reverse ++ cs)), rest) := by
  induction cs generalizing acc with
  | nil =>
      rw [List.flatMap_nil, List.nil_append, readStringFrom]
      simp
  | cons c cs ih =>
      rw [List.flatMap_cons, List.append_assoc, readStringFrom_escapeChar, ih]
      simp

/-- **A string reads back**, after its opening quote. -/
theorem readString_escaped (s : String) (rest : List Char) :
    readString (s.toList.flatMap escapeChar ++ '"' :: rest) = .ok (some s, rest) := by
  rw [readString, readStringFrom_escaped, List.reverse_nil, List.nil_append, String.ofList_toList]

/-! ## §3. Numbers. -/

/-- What follows a value in a text cannot go on a number. -/
def Delimited (rest : List Char) : Prop :=
  ∀ c ∈ rest.head?, c = ',' ∨ c = ']' ∨ c = '\x7d'

/-- A text that does not go on with a digit has none to take. -/
theorem Delimited.not_digit {rest : List Char} (h : Delimited rest) :
    rest.takeWhile Char.isDigit = [] ∧ rest.dropWhile Char.isDigit = rest := by
  cases rest with
  | nil => exact ⟨rfl, rfl⟩
  | cons c rest =>
      have hc : c.isDigit = false := by
        rcases h c rfl with rfl | rfl | rfl <;> rfl
      simp [hc]

/-- Digits are taken up to where the text goes on otherwise. -/
theorem spanDigits_append {ds rest : List Char} (hds : ∀ c ∈ ds, c.isDigit = true)
    (hrest : Delimited rest) : spanDigits (ds ++ rest) = (ds, rest) := by
  rw [spanDigits, List.takeWhile_append_of_pos hds, List.dropWhile_append_of_pos hds,
    hrest.not_digit.1, hrest.not_digit.2, List.append_nil]

/-- The digits of a number have its value. -/
theorem digitsValue_toDigits (n : Nat) : digitsValue (Nat.toDigits 10 n) = n := by
  have hfold := Nat.ofDigitChars_ten_toDigits (n := n)
  simp only [Nat.ofDigitChars_eq_foldl, Nat.mul_comm 10] at hfold
  exact hfold

/-- The first digit of a number, and the others. -/
theorem toDigits_cons (n : Nat) :
    ∃ d ds, Nat.toDigits 10 n = d :: ds ∧ d.isDigit = true := by
  obtain ⟨d, ds, hds⟩ := List.exists_cons_of_ne_nil (@Nat.toDigits_ne_nil n 10)
  exact ⟨d, ds, hds, Nat.isDigit_of_mem_toDigits (by decide) (by decide) (hds ▸ List.mem_cons_self)⟩

/-- The character is no digit. -/
theorem ne_of_isDigit {c d : Char} (hd : d.isDigit = true) (hc : c.isDigit = false) : d ≠ c := by
  rintro rfl
  rw [hd] at hc
  cases hc

/-- No number but zero is written with a zero in front. -/
theorem head?_toDigits {n : Nat} (h : n ≠ 0) : (Nat.toDigits 10 n).head? ≠ some '0' := by
  induction n using Nat.strongRecOn with
  | ind n ih =>
    rcases Nat.lt_or_ge n 10 with hn | hn
    · have hall : ∀ n < 10, n ≠ 0 → n.digitChar ≠ '0' := by decide
      rw [Nat.toDigits_of_lt_base hn, List.head?_cons, Ne, Option.some.injEq]
      exact hall n hn h
    · rw [Nat.toDigits_of_base_le (by decide) hn, List.head?_append_of_ne_nil _ Nat.toDigits_ne_nil]
      exact ih (n / 10) (by omega) (by omega)

/-- The digits of a number are read as an integer. -/
theorem readInteger_toDigits (n : Nat) {rest : List Char} (hrest : Delimited rest) :
    readInteger (Nat.toDigits 10 n ++ rest) = .ok (Nat.toDigits 10 n, rest) := by
  have hspan : spanDigits (Nat.toDigits 10 n ++ rest) = (Nat.toDigits 10 n, rest) :=
    spanDigits_append (fun c hc => Nat.isDigit_of_mem_toDigits (by decide) (by decide) hc) hrest
  have hread : readDigits (Nat.toDigits 10 n ++ rest) = .ok (Nat.toDigits 10 n, rest) := by
    rw [readDigits, hspan]
    split
    · next heq => exact absurd (congrArg Prod.fst heq) Nat.toDigits_ne_nil
    · next heq => exact absurd (congrArg Prod.fst heq) Nat.toDigits_ne_nil
    · next heq => rw [heq]
  rw [readInteger, hread]
  by_cases hn : n = 0
  · subst hn
    rfl
  · simp [head?_toDigits hn]

/-- What does not go on as a number has no fraction. -/
theorem readFraction_delimited {rest : List Char} (h : Delimited rest) :
    readFraction rest = .ok (none, rest) := by
  unfold readFraction
  split
  · rcases h '.' rfl with h | h | h <;> cases h
  · rfl

theorem readExponent_delimited {rest : List Char} (h : Delimited rest) :
    readExponent rest = .ok (none, rest) := by
  cases rest with
  | nil => rfl
  | cons c rest => rcases h c rfl with rfl | rfl | rfl <;> rfl

/-- No number of 64 bits comes near the end of the double range. -/
theorem exceedsDouble_of_lt {n : Nat} (h : n < 2 ^ 64) : exceedsDouble n 0 = false := by
  have hbound : 2 ^ 64 ≤ Nat.pow 2 1024 - Nat.pow 2 970 := by decide +kernel
  unfold exceedsDouble
  -- The powers are too large for the simplifier.
  generalize Nat.pow 2 1024 - Nat.pow 2 970 = bound at hbound ⊢
  have hn : n < bound := Nat.lt_of_lt_of_le h hbound
  simp [hn]

/-- **A number reads back.** -/
theorem readNumber_toDigits {n : Nat} (hn : n < 2 ^ 64) {rest : List Char}
    (hrest : Delimited rest) :
    readNumber (Nat.toDigits 10 n ++ rest) = .ok (.natural n, rest) := by
  unfold readNumber
  split
  next negative body hbody =>
  split at hbody
  · next r heq =>
    -- A sign is no digit.
    obtain ⟨d, ds, hds, hd⟩ := toDigits_cons n
    rw [hds, List.cons_append, List.cons.injEq] at heq
    exact absurd heq.1 (ne_of_isDigit hd (by decide))
  · cases hbody
    simp [readInteger_toDigits n hrest, readFraction_delimited hrest,
      readExponent_delimited hrest, digitsValue_toDigits, exceedsDouble_of_lt hn, bind,
      Except.bind]

/-! ## §4. The printed text. -/

/-- The text of the items after the first. -/
def moreItems (items : List Json) : List Char :=
  items.flatMap fun item => ',' :: (compact item).toList

/-- The text of a field. -/
def fieldText (field : String × Json) : List Char :=
  (quote field.1).toList ++ ':' :: (compact field.2).toList

/-- The text of the fields after the first. -/
def moreFields (fields : List (String × Json)) : List Char :=
  fields.flatMap fun field => ',' :: fieldText field

/-- A quoted text is its escaped characters between quotes. -/
theorem toList_quote (s : String) :
    (quote s).toList = '"' :: (s.toList.flatMap escapeChar ++ ['"']) :=
  String.toList_ofList

/-- A row of parts, each but the first after a comma. -/
theorem intercalate_cons (part : List Char) (parts : List (List Char)) :
    [','].intercalate (part :: parts) = part ++ parts.flatMap (',' :: ·) := by
  induction parts generalizing part with
  | nil => simp [List.intercalate_singleton]
  | cons next parts ih => simp [List.intercalate_cons_cons, ih]

/-- Items are printed one by one. -/
theorem compactItems_eq (items : List Json) : compactItems items = items.map compact := by
  induction items with
  | nil => rfl
  | cons item items ih => rw [compactItems, ih, List.map_cons]

theorem compactFields_eq (fields : List (String × Json)) :
    (compactFields fields).map String.toList = fields.map fieldText := by
  induction fields with
  | nil => rfl
  | cons field fields ih => simp [compactFields, ih, fieldText]

/-- A list is printed between brackets, with commas. -/
theorem toList_compact_arr (item : Json) (items : List Json) :
    (compact (.arr (item :: items))).toList
      = '[' :: ((compact item).toList ++ (moreItems items ++ [']'])) := by
  have hparts := intercalate_cons (compact item).toList
    (items.map fun item => (compact item).toList)
  simp [compact, compactItems_eq, moreItems, String.toList_intercalate, hparts, List.flatMap_map,
    Function.comp_def]

/-- An object is printed between braces, with commas. -/
theorem toList_compact_obj (field : String × Json) (fields : List (String × Json)) :
    (compact (.obj (field :: fields))).toList
      = '\x7b' :: (fieldText field ++ (moreFields fields ++ ['\x7d'])) := by
  have hparts := intercalate_cons (fieldText field) (fields.map fieldText)
  simp [compact, moreFields, String.toList_intercalate, compactFields_eq, hparts,
    List.flatMap_map]

/-- A number is printed as its digits. -/
theorem toList_compact_natural (n : Nat) : (compact (.natural n)).toList = Nat.toDigits 10 n := by
  rw [compact, scalar, Nat.toString_eq_ofList_toDigits, String.toList_ofList]
  all_goals simp

theorem isSpace_of_isDigit {d : Char} (hd : d.isDigit = true) : isSpace d = false := by
  simp [isSpace, ne_of_isDigit hd]

/-- No value begins with a space or with the end of an array. -/
theorem toList_compact_cons {v : Json} (h : v.Plain) :
    ∃ c cs, (compact v).toList = c :: cs ∧ isSpace c = false ∧ c ≠ ']' := by
  cases v with
  | null => exact ⟨_, _, rfl, by decide, by decide⟩
  | bool b => cases b <;> exact ⟨_, _, rfl, by decide, by decide⟩
  | natural n =>
      obtain ⟨d, ds, hds, hd⟩ := toDigits_cons n
      exact ⟨d, ds, by rw [toList_compact_natural, hds], isSpace_of_isDigit hd,
        ne_of_isDigit hd (by decide)⟩
  | number literal => cases h
  | str s => exact ⟨_, _, toList_quote s, by decide, by decide⟩
  | arr items =>
      cases items with
      | nil => exact ⟨_, _, rfl, by decide, by decide⟩
      | cons item items => exact ⟨_, _, toList_compact_arr item items, by decide, by decide⟩
  | obj fields =>
      cases fields with
      | nil => exact ⟨_, _, rfl, by decide, by decide⟩
      | cons field fields => exact ⟨_, _, toList_compact_obj field fields, by decide, by decide⟩
  | unreadable => cases h
  | cut fault => cases h

/-! ## §5. The machine. -/

/-- One token that is no space. -/
theorem run_next {expect expect' : Expect} {stack stack' : List Frame} {c : Char}
    {rest rest' : List Char} (hspace : isSpace c = false)
    (hopen : ∀ value, expect = .afterValue value → stack ≠ [])
    (hstep : step expect stack c rest = .next expect' stack' rest')
    (hlength : rest'.length ≤ rest.length) :
    run expect stack (c :: rest) = run expect' stack' rest' := by
  rw [run]
  · simp [hspace, hstep, hlength]
  · exact hopen

/-- At the start of an array a value is read as anywhere. -/
theorem run_firstItem {stack : List Frame} {c : Char} {rest : List Char}
    (hspace : isSpace c = false) (hc : c ≠ ']') :
    run .firstItem stack (c :: rest) = run .value stack (c :: rest) := by
  rw [run, run]
  · simp [hspace, step, hc]
  all_goals intro _ heq; cases heq

/-- A scalar in the middle of a text. -/
theorem run_scalar {v : Json} {stack : List Frame} {c : Char} {cs rest : List Char}
    (hspace : isSpace c = false)
    (hstep : stepValue stack c (cs ++ rest) = .next (.afterValue v) stack rest) :
    run .value stack (c :: cs ++ rest) = run (.afterValue v) stack rest := by
  refine run_next hspace (fun _ heq => by cases heq) hstep ?_
  simp

/-- The name of a field, with its quotes and the colon. -/
theorem run_fieldName {expect : Expect} {before : List (String × Json)} {stack : List Frame}
    {name : String} {rest : List Char}
    (hname : ∀ cs, step expect stack '"' cs = stepName before stack '"' cs)
    (hopen : ∀ value, expect ≠ .afterValue value) :
    run expect stack ((quote name).toList ++ ':' :: rest)
      = run .value (.obj before name :: stack) rest := by
  have hquote : step expect stack '"' (name.toList.flatMap escapeChar ++ '"' :: ':' :: rest)
      = .next (.colon before name) stack (':' :: rest) := by
    rw [hname, stepName, if_pos rfl, readString_escaped]
  have hcolon : step (.colon before name) stack ':' rest
      = .next .value (.obj before name :: stack) rest := rfl
  rw [toList_quote, List.cons_append, List.append_assoc, List.singleton_append]
  rw [run_next (by decide) (fun value heq => absurd heq (hopen value)) hquote (by simp; omega)]
  exact run_next (by decide) (fun _ heq => by cases heq) hcolon (Nat.le_refl _)

/-- What stands after an item or field cannot go on a number. -/
theorem delimited_flatMap {α : Type} {text : α → List Char} (xs : List α) {c : Char}
    {rest : List Char} (hc : c = ']' ∨ c = '\x7d') :
    Delimited (xs.flatMap (fun x => ',' :: text x) ++ c :: rest) := by
  intro c' hc'
  cases xs with
  | nil =>
      cases hc'
      exact .inr hc
  | cons x xs =>
      cases hc'
      exact .inl rfl

/-- The natural number in the middle of a text. -/
theorem run_natural {n : Nat} (hn : n < 2 ^ 64) {stack : List Frame} {rest : List Char}
    (hrest : Delimited rest) :
    run .value stack (Nat.toDigits 10 n ++ rest) = run (.afterValue (.natural n)) stack rest := by
  obtain ⟨d, ds, hds, hd⟩ := toDigits_cons n
  have hnumber := readNumber_toDigits hn hrest
  rw [hds] at hnumber ⊢
  refine run_scalar (isSpace_of_isDigit hd) ?_
  rw [List.cons_append] at hnumber
  have hbracket := ne_of_isDigit hd (c := '[') (by decide)
  have hbrace := ne_of_isDigit hd (c := '\x7b') (by decide)
  have hquote := ne_of_isDigit hd (c := '"') (by decide)
  simp [stepValue, hbracket, hbrace, hquote, hd, hnumber]

/-- A bracket opens a list. -/
theorem run_openArray (stack : List Frame) (rest : List Char) :
    run .value stack ('[' :: rest) = run .firstItem (.arr [] :: stack) rest :=
  run_next (by decide) (fun _ heq => by cases heq) rfl (Nat.le_refl _)

theorem run_openObject (stack : List Frame) (rest : List Char) :
    run .value stack ('\x7b' :: rest) = run .firstName stack rest :=
  run_next (by decide) (fun _ heq => by cases heq) rfl (Nat.le_refl _)

/-- A bracket closes the list with the last item. -/
theorem run_closeArray (value : Json) (before : List Json) (stack : List Frame)
    (rest : List Char) :
    run (.afterValue value) (.arr before :: stack) (']' :: rest)
      = run (.afterValue (.arr (before.reverse ++ [value]))) stack rest := by
  rw [← List.reverse_cons]
  exact run_next (by decide) (fun _ _ => List.cons_ne_nil _ _) rfl (Nat.le_refl _)

theorem run_closeObject (value : Json) (before : List (String × Json)) (name : String)
    (stack : List Frame) (rest : List Char) :
    run (.afterValue value) (.obj before name :: stack) ('\x7d' :: rest)
      = run (.afterValue (.obj (before.reverse ++ [(name, value)]))) stack rest := by
  rw [← List.reverse_cons]
  exact run_next (by decide) (fun _ _ => List.cons_ne_nil _ _) rfl (Nat.le_refl _)

/-- A comma in a list leads to the next item. -/
theorem run_nextItem (value : Json) (before : List Json) (stack : List Frame)
    (rest : List Char) :
    run (.afterValue value) (.arr before :: stack) (',' :: rest)
      = run .value (.arr (value :: before) :: stack) rest :=
  run_next (by decide) (fun _ _ => List.cons_ne_nil _ _) rfl (Nat.le_refl _)

theorem run_nextName (value : Json) (before : List (String × Json)) (name : String)
    (stack : List Frame) (rest : List Char) :
    run (.afterValue value) (.obj before name :: stack) (',' :: rest)
      = run (.name ((name, value) :: before)) stack rest :=
  run_next (by decide) (fun _ _ => List.cons_ne_nil _ _) rfl (Nat.le_refl _)

mutual

/-- **A value in the middle of a text reads back.** -/
theorem run_compact : ∀ (v : Json) (stack : List Frame) (rest : List Char), v.Plain →
    Delimited rest →
    run .value stack ((compact v).toList ++ rest) = run (.afterValue v) stack rest
  | .null, _, _, _, _ => run_scalar (by decide) rfl
  | .bool true, _, _, _, _ => run_scalar (by decide) rfl
  | .bool false, _, _, _, _ => run_scalar (by decide) rfl
  | .natural n, _, _, hn, hrest => by
      rw [toList_compact_natural]
      exact run_natural hn hrest
  | .str s, stack, rest, _, _ => by
      rw [compact, scalar, toList_quote]
      · refine run_scalar (by decide) ?_
        rw [List.append_assoc, List.singleton_append]
        simp [stepValue, readString_escaped]
      all_goals simp
  | .arr [], stack, rest, _, _ => by
      have hclose : run .firstItem (.arr [] :: stack) (']' :: rest)
          = run (.afterValue (.arr [])) stack rest :=
        run_next (by decide) (fun _ heq => by cases heq) rfl (Nat.le_refl _)
      exact (run_openArray stack (']' :: rest)).trans hclose
  | .arr (item :: items), stack, rest, hv, _ => by
      have hitem := run_compact item (.arr [] :: stack) (moreItems items ++ ']' :: rest) hv.1
        (delimited_flatMap items (.inl rfl))
      obtain ⟨c, cs, hcs, hspace, hc⟩ := toList_compact_cons hv.1
      -- No item begins like the end of the array, so the first is read as any other.
      have hfirst : run .firstItem (.arr [] :: stack)
          ((compact item).toList ++ (moreItems items ++ ']' :: rest))
            = run (.afterValue item) (.arr [] :: stack) (moreItems items ++ ']' :: rest) := by
        rw [← hitem, hcs]
        exact run_firstItem hspace hc
      rw [toList_compact_arr]
      simp only [List.cons_append, List.append_assoc, List.nil_append]
      rw [run_openArray, hfirst, run_moreItems items [] item stack rest hv.2]
      rfl
  | .obj [], stack, rest, _, _ => by
      have hclose : run .firstName stack ('\x7d' :: rest)
          = run (.afterValue (.obj [])) stack rest :=
        run_next (by decide) (fun _ heq => by cases heq) rfl (Nat.le_refl _)
      exact (run_openObject stack ('\x7d' :: rest)).trans hclose
  | .obj ((name, value) :: fields), stack, rest, hv, _ => by
      have hvalue := run_compact value (.obj [] name :: stack)
        (moreFields fields ++ '\x7d' :: rest) hv.1 (delimited_flatMap fields (.inr rfl))
      rw [toList_compact_obj, fieldText]
      simp only [List.cons_append, List.append_assoc, List.nil_append]
      rw [run_openObject, run_fieldName (fun _ => rfl) (by simp), hvalue,
        run_moreFields fields [] name value stack rest hv.2]
      rfl

/-- After an item, the others and the end of the array. -/
theorem run_moreItems : ∀ (items before : List Json) (value : Json) (stack : List Frame)
    (rest : List Char), PlainItems items →
    run (.afterValue value) (.arr before :: stack) (moreItems items ++ ']' :: rest)
      = run (.afterValue (.arr (before.reverse ++ value :: items))) stack rest
  | [], before, value, stack, rest, _ => run_closeArray value before stack rest
  | item :: items, before, value, stack, rest, hitems => by
      have hitem := run_compact item (.arr (value :: before) :: stack)
        (moreItems items ++ ']' :: rest) hitems.1 (delimited_flatMap items (.inl rfl))
      -- Past the comma the item read last is on the stack.
      rw [moreItems, List.flatMap_cons, ← moreItems]
      simp only [List.cons_append, List.append_assoc]
      rw [run_nextItem, hitem, run_moreItems items (value :: before) item stack rest hitems.2,
        List.reverse_cons, List.append_assoc, List.singleton_append]

/-- After a field, the others and the end of the object. -/
theorem run_moreFields : ∀ (fields before : List (String × Json)) (name : String)
    (value : Json) (stack : List Frame) (rest : List Char), PlainFields fields →
    run (.afterValue value) (.obj before name :: stack) (moreFields fields ++ '\x7d' :: rest)
      = run (.afterValue (.obj (before.reverse ++ (name, value) :: fields))) stack rest
  | [], before, name, value, stack, rest, _ => run_closeObject value before name stack rest
  | (name', value') :: fields, before, name, value, stack, rest, hfields => by
      have hvalue := run_compact value' (.obj ((name, value) :: before) name' :: stack)
        (moreFields fields ++ '\x7d' :: rest) hfields.1 (delimited_flatMap fields (.inr rfl))
      rw [moreFields, List.flatMap_cons, ← moreFields, fieldText]
      simp only [List.cons_append, List.append_assoc]
      rw [run_nextName, run_fieldName (fun _ => rfl) (by simp), hvalue,
        run_moreFields fields ((name, value) :: before) name' value' stack rest hfields.2,
        List.reverse_cons, List.append_assoc, List.singleton_append]

end

/-- **The reader undoes the printer.** -/
theorem read_compact {v : Json} (h : v.Plain) : read (compact v) = ⟨v, none⟩ := by
  have hrun := run_compact v [] [] h (fun c hc => by cases hc)
  rw [List.append_nil] at hrun
  rw [read, hrun, run]

end ObjcBindings.Text.Json
