/-
  ObjcBindings.Proofs.SdkLayout
  ────────────────────────────────
  **THE MODULES OF THE HEADERS OF AN SDK.**

  The built-in rules are patterns that overlap and may match anywhere in a
  path.  Where a directory of the SDK occurs once in the path, what follows it
  decides the module:

      textsAfter     — what follows the occurrences of a directory
      IsHeaderPath   — directories and a header
      SdkModule      — the layout of an SDK, without patterns

  Main results:
    • `builtinRules_eq` and the lemmas `…_reads` — each rule names exactly the
      modules of one part of the layout,
    • `moduleOfPath_of_sdkModule` — a path of the layout belongs to its module.
-/
import Mathlib.Data.List.Infix
import ObjcBindings.Header.Layout
import ObjcBindings.Proofs.PatternMatches

namespace ObjcBindings

open Text
open Text.Pattern
open scoped Computability

/-! ## §1. Occurrences of a directory. -/

/-- What follows each occurrence of the needle in the text.  It occurs exactly
once if this has one element; occurrences may overlap. -/
def textsAfter (needle : String) (text : List Char) : List (List Char) :=
  text.tails.filterMap needle.toList.isPrefixOf?

/-- The texts after the occurrences of a needle. -/
theorem mem_textsAfter {needle : String} {text rest : List Char} :
    rest ∈ textsAfter needle text ↔ ∃ before, text = before ++ (needle.toList ++ rest) := by
  simp only [textsAfter, List.mem_filterMap, List.mem_tails, List.isPrefixOf?_eq_some_iff_append_eq]
  constructor
  · rintro ⟨_, ⟨before, htext⟩, rfl⟩
    exact ⟨before, htext.symm⟩
  · rintro ⟨before, rfl⟩
    exact ⟨_, ⟨before, rfl⟩, rfl⟩

/-! ## §2. The layout. -/

namespace Layout

/-- A part of a path between slashes. -/
def IsComponent (xs : List Char) : Prop := xs ≠ [] ∧ '/' ∉ xs

/-- The name of a framework, before its extension. -/
def IsFrameworkName (xs : List Char) : Prop := xs ≠ [] ∧ '.' ∉ xs ∧ '/' ∉ xs

/-- A header, below any number of directories. -/
inductive IsHeaderPath : List Char → Prop
  | header {stem : List Char} : IsComponent stem → IsHeaderPath (stem ++ ".h".toList)
  | inside {directory rest : List Char} : IsComponent directory → IsHeaderPath rest →
      IsHeaderPath (directory ++ '/' :: rest)

instance : DecidablePred IsComponent := fun _ => inferInstanceAs (Decidable (_ ∧ _))

instance : DecidablePred IsFrameworkName := fun _ => inferInstanceAs (Decidable (_ ∧ _))

/-- The directory of frameworks. -/
def frameworksDir : String := "/System/Library/Frameworks/"

/-- The directory of system headers. -/
def includeDir : String := "/usr/include/"

/-- The directory of compilers. -/
def compilerDir : String := "/lib/clang/"

/-- A header of a framework. -/
def OfFramework (rest : List Char) (name : String) : Prop :=
  IsFrameworkName name.toList ∧ ∃ header, IsHeaderPath header ∧
    rest = name.toList ++ (".framework/Headers/".toList ++ header)

/-- A header of a framework inside a framework. -/
def OfSubframework (rest : List Char) (name : String) : Prop :=
  IsFrameworkName name.toList ∧ ∃ inner header, IsComponent inner ∧ IsHeaderPath header ∧
    rest = name.toList ++
      (".framework/Frameworks/".toList ++ (inner ++ (".framework/Headers/".toList ++ header)))

/-- A header on its own. -/
def IsHeader (rest : List Char) : Prop := ∃ stem, IsComponent stem ∧ rest = stem ++ ".h".toList

/-- Anything below one of the directories. -/
def Under (directories : List String) (rest : List Char) : Prop :=
  ∃ directory ∈ directories, ∃ inside, rest = directory.toList ++ '/' :: inside

/-- A header below a directory. -/
def OfDirectory (rest : List Char) (name : String) : Prop :=
  IsComponent name.toList ∧ ∃ header, IsHeaderPath header ∧ rest = name.toList ++ '/' :: header

/-- The headers that a version of the compiler brings. -/
def OfCompiler (rest : List Char) : Prop :=
  ∃ version inside, IsComponent version ∧ rest = version ++ ("/include/".toList ++ inside)

/-- The directories of system headers that belong to the core module. -/
def coreDirectories : List String :=
  ["objc", "sys", "machine", "i386", "arm", "arm64", "libkern", "architecture", "secure",
   "xlocale", "_types", "mach", "mach-o", "malloc"]

/-- The module of a path in an SDK. -/
inductive SdkModule (path : List Char) : String → Prop
  | framework {rest : List Char} {name : String} : textsAfter frameworksDir path = [rest] →
      OfFramework rest name → SdkModule path (Ident.moduleName name)
  | subframework {rest : List Char} {name : String} : textsAfter frameworksDir path = [rest] →
      OfSubframework rest name → SdkModule path (Ident.moduleName name)
  | header {rest : List Char} : textsAfter frameworksDir path = [] →
      textsAfter includeDir path = [rest] → IsHeader rest → SdkModule path "core"
  | system {rest : List Char} : textsAfter frameworksDir path = [] →
      textsAfter includeDir path = [rest] → Under coreDirectories rest → SdkModule path "core"
  | directory {rest : List Char} {name : String} : textsAfter frameworksDir path = [] →
      textsAfter includeDir path = [rest] → OfDirectory rest name → name ∉ coreDirectories →
      SdkModule path (Ident.moduleName name)
  | compiler {rest : List Char} : textsAfter frameworksDir path = [] →
      textsAfter includeDir path = [] → rest ∈ textsAfter compilerDir path → OfCompiler rest →
      SdkModule path "core"
  | builtIn : path = "<built-in>".toList → SdkModule path "core"

end Layout

/-! ## §3. What a rule reads. -/

/-- What the target makes of the groups of a match. -/
def RuleTarget.name? (target : RuleTarget) (groups : List (Nat × List Char)) : Option String :=
  match target with
  | .core => some coreModule
  | .fixed name => some name
  | .capture => (groups.lookup 1).map String.ofList

namespace ModuleRule

variable {rule : ModuleRule} {dir : String} {Names : List Char → String → Prop} {path name : String}

/-- A rule reads the name off what its pattern finds. -/
theorem moduleFor?_eq (rule : ModuleRule) (path : String) :
    rule.moduleFor? path = (rule.pattern.search? path).bind rule.target.name? := by
  rw [moduleFor?]
  cases rule.pattern.search? path with
  | none => rfl
  | some groups => cases rule.target <;> rfl

/-- The rule reads what follows a directory: it finds something where that is
named, and names it so. -/
structure Reads (rule : ModuleRule) (dir : String) (Names : List Char → String → Prop) : Prop where
  found {text rest : List Char} {name : String} :
    rest ∈ textsAfter dir text → Names rest name → ∃ q, rule.pattern.FoundIn text q
  named {text : List Char} {q : Text.Place} : rule.pattern.FoundIn text q →
    ∃ rest ∈ textsAfter dir text, ∃ name, Names rest name ∧ rule.target.name? q.groups = some name

/-- Which names a rule reads may be said in another way. -/
theorem Reads.congr (h : rule.Reads dir Names) {Names' : List Char → String → Prop}
    (hiff : ∀ rest name, Names rest name ↔ Names' rest name) : rule.Reads dir Names' where
  found hrest hname := h.found hrest ((hiff _ _).2 hname)
  named hq := by
    obtain ⟨rest, hrest, name, hname, htarget⟩ := h.named hq
    exact ⟨rest, hrest, name, (hiff rest name).1 hname, htarget⟩

/-- Rules with the same target and the same matches read the same. -/
theorem Reads.of_matches (h : rule.Reads dir Names) {rule' : ModuleRule}
    (htarget : rule'.target = rule.target)
    (hmatches : rule'.pattern.Matches = rule.pattern.Matches) : rule'.Reads dir Names where
  found {text _ _} hrest hname := by
    obtain ⟨q, hq⟩ := h.found hrest hname
    exact ⟨q, by rwa [FoundIn, hmatches]⟩
  named {text q} hq := by
    rw [FoundIn, hmatches] at hq
    rw [htarget]
    exact h.named hq

/-- The rule is silent if nothing that follows the directory is named. -/
theorem Reads.moduleFor?_eq_none (h : rule.Reads dir Names)
    (hno : ∀ rest ∈ textsAfter dir path.toList, ∀ name, ¬ Names rest name) :
    rule.moduleFor? path = none := by
  have hsearch : rule.pattern.search? path = none := by
    rw [search?_eq_none_iff]
    intro q hq
    obtain ⟨rest, hrest, name, hname, _⟩ := h.named hq
    exact hno rest hrest name hname
  rw [moduleFor?_eq, hsearch, Option.bind_none]

/-- **The rule names what all that follows the directory is named.** -/
theorem Reads.moduleFor?_eq_some (h : rule.Reads dir Names) {rest : List Char}
    (hrest : rest ∈ textsAfter dir path.toList) (hname : Names rest name)
    (honly : ∀ rest' ∈ textsAfter dir path.toList, ∀ name', Names rest' name' → name' = name) :
    rule.moduleFor? path = some name := by
  cases hsearch : rule.pattern.search? path with
  | none =>
      obtain ⟨q, hq⟩ := h.found hrest hname
      exact absurd hq (search?_eq_none_iff.1 hsearch q)
  | some groups =>
      obtain ⟨q, hq, rfl⟩ := exists_foundIn_of_search? hsearch
      obtain ⟨rest', hrest', name', hname', htarget⟩ := h.named hq
      rw [moduleFor?_eq, hsearch, Option.bind_some, htarget, honly rest' hrest' name' hname']

/-- A rule reads no name off a path without its directory. -/
theorem Reads.moduleFor?_eq_none_of_absent (h : rule.Reads dir Names)
    (habsent : textsAfter dir path.toList = []) : rule.moduleFor? path = none :=
  h.moduleFor?_eq_none (by rw [habsent]; exact List.forall_mem_nil _)

theorem Reads.moduleFor?_eq_none_of_once (h : rule.Reads dir Names) {rest : List Char}
    (honce : textsAfter dir path.toList = [rest]) (hno : ∀ name, ¬ Names rest name) :
    rule.moduleFor? path = none :=
  h.moduleFor?_eq_none (by rw [honce]; exact List.forall_mem_singleton.2 hno)

/-- Off a path that has the directory once it reads the only name behind it. -/
theorem Reads.moduleFor?_eq_some_of_once (h : rule.Reads dir Names) {rest : List Char}
    (honce : textsAfter dir path.toList = [rest]) (hname : Names rest name)
    (honly : ∀ name', Names rest name' → name' = name) : rule.moduleFor? path = some name := by
  have hmem : rest ∈ textsAfter dir path.toList := honce ▸ List.mem_singleton_self rest
  refine h.moduleFor?_eq_some hmem hname ?_
  rw [honce]
  exact List.forall_mem_singleton.2 honly

/-- A pattern after a directory, and where its matches lead. -/
def below (dir : String) (tail : Pattern) (target : RuleTarget) : ModuleRule :=
  ⟨.seq (literal dir) tail, target⟩

/-- **A rule below a directory reads what follows it**, if the pattern leads on
from where something is named, and its matches lead to that name. -/
theorem below_reads {tail : Pattern} {target : RuleTarget}
    (hfound : ∀ {p : Text.Place} {name : String}, Names p.after name → ∃ q, tail.Matches p q)
    (hnamed : ∀ {p q : Text.Place}, tail.Matches p q → p.groups = [] →
      ∃ name, Names p.after name ∧ target.name? q.groups = some name) :
    (below dir tail target).Reads dir Names where
  found {text rest name} hrest hname := by
    obtain ⟨before, htext⟩ := mem_textsAfter.1 hrest
    obtain ⟨q, hq⟩ := hfound (p := (Text.Place.mk before.reverse _ []).beyond dir.toList rest) hname
    exact ⟨q, before, dir.toList ++ rest, htext,
      (seq_matches_iff (literal_spells dir)).2 ⟨dir.toList, rfl, rest, rfl, hq⟩⟩
  named {text q} hfoundIn := by
    obtain ⟨before, after, htext, hmatches⟩ := hfoundIn
    obtain ⟨_, rfl, rest, hafter, htail⟩ := (seq_matches_iff (literal_spells dir)).1 hmatches
    obtain ⟨name, hname, htarget⟩ := hnamed htail rfl
    obtain rfl : after = dir.toList ++ rest := hafter
    exact ⟨rest, mem_textsAfter.2 ⟨before, htext⟩, name, hname, htarget⟩

/-- The word of a group names the module. -/
theorem capture_reads {a b : Pattern} {L M : Language Char} (ha : a.Spells L) (hb : b.Finishes M) :
    (below dir (.seq (.group 1 a) b) .capture).Reads dir fun rest name =>
      name.toList ∈ L ∧ ∃ end' ∈ M, rest = name.toList ++ end' := by
  refine below_reads (fun {p name} hname => ?_) (fun {p q} hmatches hgroups => ?_)
  · obtain ⟨hmem, end', hend, hafter⟩ := hname
    exact ⟨_, (group_seq_matches_iff ha hb).2 ⟨name.toList, hmem, end', hend, hafter, rfl⟩⟩
  · obtain ⟨xs, hxs, end', hend, hafter, rfl⟩ := (group_seq_matches_iff ha hb).1 hmatches
    refine ⟨String.ofList xs, ?_, by simp [RuleTarget.name?]⟩
    rw [String.toList_ofList]
    exact ⟨hxs, end', hend, hafter⟩

/-- Wherever the pattern leads on, there is the core module. -/
theorem core_reads {tail : Pattern} {P : List Char → Prop}
    (h : ∀ p, (∃ q, tail.Matches p q) ↔ P p.after) :
    (below dir tail .core).Reads dir fun rest name => name = coreModule ∧ P rest :=
  below_reads (fun {p _} hname => (h p).2 hname.2)
    (fun {p q} hmatches _ => ⟨coreModule, ⟨rfl, (h p).1 ⟨q, hmatches⟩⟩, rfl⟩)

end ModuleRule

namespace Layout

/-! ## §4. The parts of the patterns. -/

variable {p q : Text.Place} {rest : List Char} {name name' : String}

theorem contains_compl_one {c d : Char} : (CharSet.compl (.one c)).contains d = true ↔ d ≠ c := by
  rw [CharSet.contains, Bool.not_eq_true', ← Bool.not_eq_true, contains_one]

theorem contains_compl_union_one {b c d : Char} :
    (CharSet.compl (.union (.one b) (.one c))).contains d = true ↔ d ≠ b ∧ d ≠ c := by
  rw [CharSet.contains, Bool.not_eq_true', ← Bool.not_eq_true, CharSet.contains, Bool.or_eq_true,
    contains_one, contains_one, not_or]

/-- Components are what the patterns for them take. -/
theorem isComponent_iff {xs : List Char} : xs ∈ runs (.compl (.one '/')) ↔ IsComponent xs := by
  refine and_congr_right fun _ => ?_
  simp only [contains_compl_one]
  exact ⟨fun h hslash => h _ hslash rfl, fun h c hc => ne_of_mem_of_not_mem hc h⟩

/-- Names of frameworks are what the patterns for them take. -/
theorem isFrameworkName_iff {xs : List Char} :
    xs ∈ runs (.compl (.union (.one '.') (.one '/'))) ↔ IsFrameworkName xs := by
  refine and_congr_right fun _ => ?_
  simp only [contains_compl_union_one]
  exact ⟨fun h => ⟨fun hdot => (h _ hdot).1 rfl, fun hslash => (h _ hslash).2 rfl⟩,
    fun h c hc => ⟨ne_of_mem_of_not_mem hc h.1, ne_of_mem_of_not_mem hc h.2⟩⟩

/-- The words of a directory and its slash. -/
def directories : Language Char := runs (.compl (.one '/')) * {['/']}

/-- Directories of a path are components with a slash behind them. -/
theorem mem_directories {xs : List Char} :
    xs ∈ directories ↔ ∃ directory, IsComponent directory ∧ directory ++ ['/'] = xs := by
  simp only [directories, Language.mem_mul, exists_mem_singleton, isComponent_iff]

/-- The header paths. -/
def headerPaths : Language Char := {xs | IsHeaderPath xs}

/-- Paths of headers are what the language of the patterns holds. -/
theorem mem_headerPaths {xs : List Char} : xs ∈ headerPaths ↔ IsHeaderPath xs := Iff.rfl

/-- The directories of a header path are a word of the star. -/
theorem isHeaderPath_iff {xs : List Char} :
    IsHeaderPath xs ↔
      ∃ ds ∈ directories∗, ∃ stem, IsComponent stem ∧ xs = ds ++ (stem ++ ".h".toList) := by
  constructor
  · intro h
    induction h with
    | header hstem => exact ⟨[], Language.nil_mem_kstar _, _, hstem, rfl⟩
    | inside hdirectory _ ih =>
        obtain ⟨ds, hds, stem, hstem, rfl⟩ := ih
        exact ⟨_, append_mem_kstar (mem_directories.2 ⟨_, hdirectory, rfl⟩) hds, stem, hstem,
          by simp⟩
  · rintro ⟨ds, hds, stem, hstem, rfl⟩
    obtain ⟨words, rfl, hwords⟩ := Language.mem_kstar.1 hds
    clear hds
    induction words with
    | nil => exact .header hstem
    | cons w words ih =>
        obtain ⟨hw, hrest⟩ := List.forall_mem_cons.1 hwords
        obtain ⟨directory, hdirectory, rfl⟩ := mem_directories.1 hw
        rw [List.flatten_cons, List.append_assoc, List.append_assoc]
        exact .inside hdirectory (ih hrest)

/-- The pattern for the path of a header takes such paths up to the end. -/
theorem headerPath_finishes : headerPath.Finishes headerPaths := by
  have hstar : (star (.seq component (char '/'))).Spells directories∗ :=
    star_spells (seq_spells (plus_one_spells _) (char_spells '/'))
  have heq : directories∗ * (runs (.compl (.one '/')) * ({".h".toList} * 1)) = headerPaths := by
    ext xs
    rw [mem_headerPaths, isHeaderPath_iff, mul_one, Language.mem_mul]
    simp only [exists_mem_mul, exists_mem_singleton, isComponent_iff, eq_comm]
  exact heq ▸ seq_finishes hstar (seq_finishes (plus_one_spells _)
    (seq_finishes (literal_spells ".h") finish_finishes))

/-! ## §5. The rules. -/

-- Each rule is split where its directory ends.  The runtime's rule has nothing
-- after its directory, and that of what is built in has no directory.
def frameworkRule : ModuleRule :=
  .below frameworksDir (concat [framework, literal ".framework/Headers/", headerPath]) .capture

def subframeworkRule : ModuleRule :=
  .below frameworksDir (concat [framework, literal ".framework/Frameworks/", component,
    literal ".framework/Headers/", headerPath]) .capture

def runtimeRule : ModuleRule := ⟨literal "/usr/include/objc/", .core⟩

def headerRule : ModuleRule := .below includeDir (concat [component, literal ".h", .finish]) .core

def systemRule : ModuleRule :=
  .below includeDir (concat [choice (systemDirectories.map literal), char '/']) .core

def directoryRule : ModuleRule :=
  .below includeDir (concat [.group 1 component, char '/', headerPath]) .capture

def compilerRule : ModuleRule :=
  .below compilerDir (concat [component, literal "/include/"]) .core

def builtInRule : ModuleRule := ⟨concat [.start, literal "<built-in>", .finish], .core⟩

/-- The built-in rules, by name. -/
theorem builtinRules_eq : builtinRules =
    [frameworkRule, subframeworkRule, runtimeRule, headerRule, systemRule, directoryRule,
     compilerRule, builtInRule] := rfl

/-- The rule for frameworks reads the name of the framework. -/
theorem frameworkRule_reads : frameworkRule.Reads frameworksDir OfFramework := by
  refine (ModuleRule.capture_reads (plus_one_spells _)
    (seq_finishes (literal_spells _) headerPath_finishes)).congr fun rest name => ?_
  refine and_congr isFrameworkName_iff ?_
  simp only [exists_mem_mul, exists_mem_singleton, mem_headerPaths]

/-- The rule for frameworks inside frameworks reads the name of the inner one. -/
theorem subframeworkRule_reads : subframeworkRule.Reads frameworksDir OfSubframework := by
  refine (ModuleRule.capture_reads (plus_one_spells _)
    (seq_finishes (literal_spells _) (seq_finishes (plus_one_spells _)
      (seq_finishes (literal_spells _) headerPath_finishes)))).congr fun rest name => ?_
  refine and_congr isFrameworkName_iff ?_
  simp only [exists_mem_mul, exists_mem_singleton, isComponent_iff, mem_headerPaths,
    exists_and_left]

/-- The rule for directories of headers reads the name of the directory. -/
theorem directoryRule_reads : directoryRule.Reads includeDir OfDirectory := by
  refine (ModuleRule.capture_reads (plus_one_spells _)
    (seq_finishes (char_spells '/') headerPath_finishes)).congr fun rest name => ?_
  refine and_congr isComponent_iff ?_
  simp only [exists_mem_mul, exists_mem_singleton, mem_headerPaths, List.singleton_append]

/-- The rule for headers at the top reads the core module. -/
theorem headerRule_reads :
    headerRule.Reads includeDir fun rest name => name = coreModule ∧ IsHeader rest := by
  refine ModuleRule.core_reads fun p => ?_
  refine (exists_matches_iff_of_finishes (seq_finishes (plus_one_spells _)
    (seq_finishes (literal_spells ".h") finish_finishes))).trans ?_
  simp only [IsHeader, mul_one, Language.mem_mul, exists_mem_singleton, isComponent_iff, eq_comm]

theorem systemRule_reads :
    systemRule.Reads includeDir fun rest name =>
      name = coreModule ∧ Under systemDirectories rest := by
  refine ModuleRule.core_reads fun p => ?_
  refine (exists_matches_iff (seq_spells (choice_spells (List.cons_ne_nil _ _))
    (char_spells '/'))).trans ?_
  simp only [exists_mem_mul, exists_mem_singleton, List.append_assoc, List.singleton_append]
  exact exists_mem_among

theorem compilerRule_reads :
    compilerRule.Reads compilerDir fun rest name => name = coreModule ∧ OfCompiler rest := by
  refine ModuleRule.core_reads fun p => ?_
  refine (exists_matches_iff (seq_spells (plus_one_spells _) (literal_spells _))).trans ?_
  simp only [OfCompiler, exists_mem_mul, exists_mem_singleton, isComponent_iff, List.append_assoc,
    exists_and_left]

/-- The directory of the runtime is part of the pattern itself. -/
theorem runtimeRule_reads :
    runtimeRule.Reads includeDir fun rest name => name = coreModule ∧ Under ["objc"] rest := by
  have hbelow : (ModuleRule.below includeDir (literal "objc/") .core).Reads includeDir
      fun rest name => name = coreModule ∧ Under ["objc"] rest := by
    refine ModuleRule.core_reads fun p => (exists_matches_iff (literal_spells "objc/")).trans ?_
    constructor
    · rintro ⟨_, rfl, inside, hafter⟩
      exact ⟨"objc", List.mem_singleton_self _, inside, hafter⟩
    · rintro ⟨_, hdirectory, inside, hafter⟩
      rw [List.mem_singleton.1 hdirectory] at hafter
      exact ⟨_, rfl, inside, hafter⟩
  have hmatches : runtimeRule.pattern.Matches =
      (ModuleRule.below includeDir (literal "objc/") .core).pattern.Matches := by
    ext p q
    exact literal_append_matches_iff includeDir "objc/"
  exact hbelow.of_matches rfl hmatches

/-! ## §6. What follows a directory says one thing. -/

/-- The first such character divides a text in one way. -/
theorem split_unique {c : Char} {xs xs' ys ys' : List Char} (h : c ∉ xs) (h' : c ∉ xs')
    (heq : xs ++ c :: ys = xs' ++ c :: ys') : xs = xs' ∧ ys = ys' := by
  induction xs generalizing xs' with
  | nil =>
      cases xs' with
      | nil => exact ⟨rfl, (List.cons.inj heq).2⟩
      | cons d xs' => exact absurd (List.cons.inj heq).1 (List.ne_of_not_mem_cons h')
  | cons d xs ih =>
      cases xs' with
      | nil => exact absurd (List.cons.inj heq).1.symm (List.ne_of_not_mem_cons h)
      | cons e xs' =>
          obtain ⟨rfl, htail⟩ := List.cons.inj heq
          obtain ⟨rfl, hys⟩ := ih (List.not_mem_of_not_mem_cons h)
            (List.not_mem_of_not_mem_cons h') htail
          exact ⟨rfl, hys⟩

/-- A path belongs to one framework only. -/
theorem OfFramework.name_eq (h : OfFramework rest name) (h' : OfFramework rest name') :
    name' = name := by
  obtain ⟨⟨_, hdot, _⟩, header, _, rfl⟩ := h
  obtain ⟨⟨_, hdot', _⟩, header', _, heq⟩ := h'
  exact String.toList_injective (split_unique hdot' hdot heq.symm).1

/-- A path belongs to one inner framework only. -/
theorem OfSubframework.name_eq (h : OfSubframework rest name) (h' : OfSubframework rest name') :
    name' = name := by
  obtain ⟨⟨_, hdot, _⟩, inner, header, _, _, rfl⟩ := h
  obtain ⟨⟨_, hdot', _⟩, inner', header', _, _, heq⟩ := h'
  exact String.toList_injective (split_unique hdot' hdot heq.symm).1

/-- After the name of the framework, its headers and its frameworks lie in
different directories. -/
theorem OfSubframework.not_ofFramework (h : OfSubframework rest name) :
    ¬ OfFramework rest name' := by
  rintro ⟨⟨_, hdot', _⟩, header', _, heq⟩
  obtain ⟨⟨_, hdot, _⟩, inner, header, _, _, rfl⟩ := h
  have htail : "framework/".toList ++ ("Frameworks/".toList ++ _) =
      "framework/".toList ++ ("Headers/".toList ++ header') := (split_unique hdot hdot' heq).2
  have hhead : some 'F' = some 'H' := congrArg List.head? (List.append_cancel_left htail)
  exact absurd hhead (by decide)

/-- A path belongs to one directory only. -/
theorem OfDirectory.name_eq (h : OfDirectory rest name) (h' : OfDirectory rest name') :
    name' = name := by
  obtain ⟨⟨_, hslash⟩, header, _, rfl⟩ := h
  obtain ⟨⟨_, hslash'⟩, header', _, heq⟩ := h'
  exact String.toList_injective (split_unique hslash' hslash heq.symm).1

/-- The directories of the core module are those of the runtime and of the system. -/
theorem coreDirectories_eq : coreDirectories = "objc" :: systemDirectories := rfl

/-- No directory of the core module has a slash in its name. -/
theorem slash_notMem_of_mem_coreDirectories {directory : String}
    (h : directory ∈ coreDirectories) : '/' ∉ directory.toList := by
  revert directory
  decide

/-- A header at the top is in no directory. -/
theorem IsHeader.slash_notMem (h : IsHeader rest) : '/' ∉ rest := by
  obtain ⟨stem, ⟨_, hslash⟩, rfl⟩ := h
  rw [List.mem_append]
  exact not_or.2 ⟨hslash, by decide⟩

/-- What is under a directory has a slash. -/
theorem Under.slash_mem {names : List String} (h : Under names rest) : '/' ∈ rest := by
  obtain ⟨directory, _, inside, rfl⟩ := h
  exact List.mem_append_right _ List.mem_cons_self

/-- Below a directory of the core module lies what the runtime's rule reads, or
else what the system's does. -/
theorem Under.runtime_or_system (h : Under coreDirectories rest) :
    Under ["objc"] rest ∨ ¬ Under ["objc"] rest ∧ Under systemDirectories rest := by
  refine or_iff_not_imp_left.2 fun hnot => ⟨hnot, ?_⟩
  obtain ⟨directory, hdirectory, inside, hrest⟩ := h
  rw [coreDirectories_eq] at hdirectory
  obtain rfl | hsystem := List.mem_cons.1 hdirectory
  · exact absurd ⟨"objc", List.mem_singleton_self _, inside, hrest⟩ hnot
  · exact ⟨directory, hsystem, inside, hrest⟩

theorem OfDirectory.slash_mem (h : OfDirectory rest name) : '/' ∈ rest := by
  obtain ⟨_, header, _, rfl⟩ := h
  exact List.mem_append_right _ List.mem_cons_self

/-- A header of a directory lies under that directory only. -/
theorem OfDirectory.mem_of_under {names : List String} (h : OfDirectory rest name)
    (hunder : Under names rest) (hcore : ∀ n ∈ names, n ∈ coreDirectories) :
    name ∈ coreDirectories := by
  obtain ⟨⟨_, hslash⟩, header, _, rfl⟩ := h
  obtain ⟨directory, hdirectory, inside, heq⟩ := hunder
  have hnames := (split_unique hslash
    (slash_notMem_of_mem_coreDirectories (hcore _ hdirectory)) heq).1
  exact String.toList_injective hnames ▸ hcore _ hdirectory

/-! ## §7. The theorem. -/

variable {path : String}

/-- The first rule that names a module decides. -/
theorem moduleOfPath_eq (h : builtinRules.findSome? (·.moduleFor? path) = some name) :
    moduleOfPath [] path = .ok (Ident.moduleName name) := by
  rw [moduleOfPath, List.nil_append, h]

/-- A path that the built-in rules lead to the core module belongs to it. -/
theorem moduleOfPath_core (h : builtinRules.findSome? (·.moduleFor? path) = some coreModule) :
    moduleOfPath [] path = .ok "core" := moduleOfPath_eq h

/-- Rules for frameworks are silent outside of them. -/
theorem frameworkRules_silent (h : textsAfter frameworksDir path.toList = []) :
    frameworkRule.moduleFor? path = none ∧ subframeworkRule.moduleFor? path = none :=
  ⟨frameworkRule_reads.moduleFor?_eq_none_of_absent h,
    subframeworkRule_reads.moduleFor?_eq_none_of_absent h⟩

/-- **A path of the layout belongs to its module**, whatever stands before the
directory that decides, and however deep the header lies. -/
theorem moduleOfPath_of_sdkModule (h : SdkModule path.toList name) :
    moduleOfPath [] path = .ok name := by
  -- The rules are tried in order: those before the one that reads the path are
  -- shown to be silent first.
  cases h with
  | framework honce hrest =>
      have h1 := frameworkRule_reads.moduleFor?_eq_some_of_once honce hrest fun _ => hrest.name_eq
      exact moduleOfPath_eq (by simp only [builtinRules_eq, List.findSome?_cons, h1])
  | subframework honce hrest =>
      -- Behind the framework stands another directory than its headers.
      have h1 := frameworkRule_reads.moduleFor?_eq_none_of_once honce
        fun _ => hrest.not_ofFramework
      have h2 := subframeworkRule_reads.moduleFor?_eq_some_of_once honce hrest
        fun _ => hrest.name_eq
      exact moduleOfPath_eq (by simp only [builtinRules_eq, List.findSome?_cons, h1, h2])
  | header habsent honce hrest =>
      -- A header right below has no further slash, which a directory would need.
      obtain ⟨h1, h2⟩ := frameworkRules_silent habsent
      have h3 := runtimeRule_reads.moduleFor?_eq_none_of_once honce
        fun _ h => hrest.slash_notMem h.2.slash_mem
      have h4 := headerRule_reads.moduleFor?_eq_some_of_once honce ⟨rfl, hrest⟩ fun _ h => h.1
      exact moduleOfPath_core (by simp only [builtinRules_eq, List.findSome?_cons, h1, h2, h3, h4])
  | system habsent honce hrest =>
      obtain ⟨h1, h2⟩ := frameworkRules_silent habsent
      obtain hruntime | ⟨hruntime, hsystem⟩ := hrest.runtime_or_system
      · have h3 := runtimeRule_reads.moduleFor?_eq_some_of_once honce ⟨rfl, hruntime⟩
          fun _ h => h.1
        exact moduleOfPath_core (by simp only [builtinRules_eq, List.findSome?_cons, h1, h2, h3])
      · -- A directory that is not the runtime's, with the slash that no header has.
        have h3 := runtimeRule_reads.moduleFor?_eq_none_of_once honce fun _ h => hruntime h.2
        have h4 := headerRule_reads.moduleFor?_eq_none_of_once honce
          fun _ h => h.2.slash_notMem hrest.slash_mem
        have h5 := systemRule_reads.moduleFor?_eq_some_of_once honce ⟨rfl, hsystem⟩ fun _ h => h.1
        exact moduleOfPath_core
          (by simp only [builtinRules_eq, List.findSome?_cons, h1, h2, h3, h4, h5])
  | directory habsent honce hrest hname =>
      -- The directory is none of those that the core rules list.
      obtain ⟨h1, h2⟩ := frameworkRules_silent habsent
      have h3 := runtimeRule_reads.moduleFor?_eq_none_of_once honce
        fun _ h => hname (hrest.mem_of_under h.2 (by decide))
      have h4 := headerRule_reads.moduleFor?_eq_none_of_once honce
        fun _ h => h.2.slash_notMem hrest.slash_mem
      have h5 := systemRule_reads.moduleFor?_eq_none_of_once honce
        fun _ h => hname (hrest.mem_of_under h.2 (by decide))
      have h6 := directoryRule_reads.moduleFor?_eq_some_of_once honce hrest fun _ => hrest.name_eq
      exact moduleOfPath_eq
        (by simp only [builtinRules_eq, List.findSome?_cons, h1, h2, h3, h4, h5, h6])
  | compiler habsent hinclude hmem hrest =>
      -- Four rules wait for a directory that the path does not have at all.
      obtain ⟨h1, h2⟩ := frameworkRules_silent habsent
      have h3 := runtimeRule_reads.moduleFor?_eq_none_of_absent hinclude
      have h4 := headerRule_reads.moduleFor?_eq_none_of_absent hinclude
      have h5 := systemRule_reads.moduleFor?_eq_none_of_absent hinclude
      have h6 := directoryRule_reads.moduleFor?_eq_none_of_absent hinclude
      have h7 := compilerRule_reads.moduleFor?_eq_some hmem ⟨rfl, hrest⟩ fun _ _ _ h => h.1
      exact moduleOfPath_core
        (by simp only [builtinRules_eq, List.findSome?_cons, h1, h2, h3, h4, h5, h6, h7])
  | builtIn hpath =>
      obtain rfl := String.toList_injective hpath
      decide

/-- A header of a framework inside a framework, one of the system and one of a
directory with other directories in it. -/
theorem moduleOfPath_of_headers :
    moduleOfPath []
        "/SDK/System/Library/Frameworks/AppKit.framework/Frameworks/In.framework/Headers/x/y.h" =
      .ok "appkit" ∧
    moduleOfPath [] "/SDK/usr/include/mach-o/loader.h" = .ok "core" ∧
    moduleOfPath [] "/SDK/usr/include/3-D/a.b/usr/queue.h" = .ok "_3_d" := by
  have hinner : OfSubframework
      "AppKit.framework/Frameworks/In.framework/Headers/x/y.h".toList "AppKit" :=
    ⟨by decide, "In".toList, "x/y.h".toList, by decide,
      @IsHeaderPath.inside "x".toList _ (by decide) (@IsHeaderPath.header "y".toList (by decide)),
      rfl⟩
  have hsystem : Under coreDirectories "mach-o/loader.h".toList :=
    ⟨"mach-o", by decide, "loader.h".toList, rfl⟩
  have hdirectory : OfDirectory "3-D/a.b/usr/queue.h".toList "3-D" :=
    ⟨by decide, "a.b/usr/queue.h".toList,
      @IsHeaderPath.inside "a.b".toList _ (by decide)
        (@IsHeaderPath.inside "usr".toList _ (by decide)
          (@IsHeaderPath.header "queue".toList (by decide))), rfl⟩
  exact ⟨moduleOfPath_of_sdkModule (.subframework (by decide +kernel) hinner),
    moduleOfPath_of_sdkModule (.system (by decide +kernel) (by decide +kernel) hsystem),
    moduleOfPath_of_sdkModule
      (.directory (by decide +kernel) (by decide +kernel) hdirectory (by decide))⟩

end Layout

end ObjcBindings
