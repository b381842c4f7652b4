/-
  ObjcBindings.Command.Report
  ────────────────────────────────
  **WHAT COMMANDS SHOW.**

  Every report has two forms: text for a reader, and JSON for a program.

      Summary         — how many declarations there are of every kind
      ModuleListing   — the containers of a module
      search results  — the declarations that answer a query
      used            — what Objective-C signatures use
-/
import ObjcBindings.Bindings.Source
import ObjcBindings.Symbol.Search
import ObjcBindings.Text.Json.Printer

namespace ObjcBindings.Report

open Text

/-! ## §1. Layout. -/

/-- Lines with an end after every one. -/
def textLines (lines : List String) : String :=
  String.join (lines.map (· ++ "\n"))

/-- The lines at the top of a section. -/
def heading (title : String) : List String :=
  ["", title, String.ofList (List.replicate 50 '─')]

/-- The mark of an item. -/
def bullet : String := "•"

/-- A number with its noun. -/
def plural (count : Nat) (word : String) : String :=
  toString count ++ " " ++ (if count = 1 then word else word ++ "s")

/-- A list of texts. -/
def jsonTexts (texts : List String) : Json := .arr (texts.map .str)

/-! ## §2. Summaries. -/

/-- How many declarations there are. -/
structure Summary where
  declarations : Nat
  definitions : Nat
  stubs : Nat
  /-- The kinds of declarations in ascending order, with their numbers. -/
  kinds : List (String × Nat)

namespace Summary

/-- The summary of a unit with its table. -/
def ofUnit (unit : TranslationUnit) (table : Table) : Summary :=
  let names := unit.children.map Decl.kindName
  { declarations := unit.children.length
    definitions := table.definitions.length
    stubs := table.stubCount
    kinds := (NameSet.ofList names).map fun kind => (kind, names.count kind) }

/-- The summary as JSON. -/
def json (s : Summary) : Json :=
  .obj [("declarations", .natural s.declarations), ("definitions", .natural s.definitions),
    ("forward_declarations", .natural s.stubs),
    ("kinds", .obj (s.kinds.map fun (kind, count) => (kind, .natural count)))]

/-- A label and its number. -/
def row (label : String) (count : Nat) : String :=
  "  " ++ padRight 22 label ++ " " ++ toString count

/-- The summary as text. -/
def text (s : Summary) : String :=
  textLines (["AST Summary", row "Declarations" s.declarations, row "Definitions" s.definitions,
      row "Forward declarations" s.stubs]
    ++ heading "By kind" ++ s.kinds.map fun (kind, count) => row kind count)

end Summary

/-! ## §3. Modules. -/

/-- The containers of a module by their names. -/
structure ModuleListing where
  name : String
  interfaces : List String
  protocols : List String
  categories : List String

/-- The defined containers with their modules, in order. -/
def assigned (rules : List ModuleRule) : List Decl → Except Failure (List (String × Decl))
  | [] => .ok []
  | d :: ds =>
      match Layout.moduleOf rules d with
      | .error e => .error e
      | .ok module => (assigned rules ds).map ((module, d) :: ·)

/-- The names of the containers of a module that pass a test. -/
def namesIn (containers : List (String × Decl)) (module : String) (test : Decl → Bool) :
    List String :=
  (containers.filter fun (m, d) => m == module && test d).map (·.2.displayName)

/-- The modules with containers, by name. -/
def moduleListings (table : Table) (rules : List ModuleRule) :
    Except Failure (List ModuleListing) := do
  let containers ← assigned rules (table.definitions.filter Decl.isContainer)
  return (NameSet.ofList (containers.map Prod.fst)).map fun module =>
    { name := module
      interfaces := namesIn containers module Decl.isInterface
      protocols := namesIn containers module Decl.isProtocol
      categories := namesIn containers module fun d => !d.isInterface && !d.isProtocol }

namespace ModuleListing

/-- A field of the JSON form. -/
def json (m : ModuleListing) : String × Json :=
  (m.name, .obj [("interfaces", jsonTexts m.interfaces), ("protocols", jsonTexts m.protocols),
    ("categories", jsonTexts m.categories)])

/-- A line with names, unless there are none. -/
def row (label : String) (names : List String) : List String :=
  if names.isEmpty then [] else ["  " ++ label ++ ": " ++ ", ".intercalate names]

/-- The lines of the text form. -/
def lines (m : ModuleListing) : List String :=
  heading m.name ++ row "Interfaces" m.interfaces ++ row "Protocols" m.protocols
    ++ row "Categories" m.categories

end ModuleListing

/-! ## §4. Search results. -/

/-- How a match is shown. -/
def matchText : NameMatch → String
  | .exact => "exact"
  | .caseInsensitive => "case-insensitive"
  | .contains => "contains"
  | .fuzzy distance => "fuzzy(" ++ toString distance ++ ")"

/-- A search result as JSON. -/
def resultJson (r : SearchResult) : Json :=
  .obj [("name", .str r.decl.name), ("usr", .str r.decl.usr), ("kind", .str r.decl.kindName),
    ("match_type", .str (matchText r.found))]

/-- A search result as a line. -/
def resultLine (r : SearchResult) : String :=
  "  " ++ bullet ++ " " ++ padRight 32 r.decl.name ++ " " ++ padRight 14 r.decl.kindName ++ " "
    ++ matchText r.found

/-- The results for a query as lines. -/
def resultLines (query : String) (results : List SearchResult) : List String :=
  if results.isEmpty then ["  No results found for '" ++ query ++ "'"]
  else results.map resultLine

/-! ## §5. What is used. -/

/-- The used declarations as JSON. -/
def usedJson (used : Used) : Json :=
  .obj [("types", jsonTexts used.typedefs), ("structs", jsonTexts used.structs),
    ("enums", jsonTexts used.enums), ("unions", jsonTexts used.unions),
    ("objc", jsonTexts used.objc)]

/-- A used declaration as a line. -/
def usedLine (table : Table) (usr : Usr) : String :=
  let name := ((table.find? usr).map Decl.displayName).getD usr
  "  " ++ bullet ++ " " ++ name ++ " " ++ usr

/-- A section of used declarations, unless there are none. -/
def usedSection (table : Table) (label : String) (usrs : List Usr) : List String :=
  if usrs.isEmpty then []
  else heading (label ++ " (" ++ toString usrs.length ++ ")") ++ usrs.map (usedLine table)

/-- The used declarations as lines. -/
def usedLines (table : Table) (used : Used) : List String :=
  usedSection table "Typedefs" used.typedefs ++ usedSection table "Structs" used.structs
    ++ usedSection table "Enums" used.enums ++ usedSection table "Unions" used.unions
    ++ usedSection table "Objective-C" used.objc

/-! ## §6. Bindings. -/

/-- The generated code as JSON. -/
def sourceJson (source : Source) : Json :=
  .obj [("header", match source.header with
      | some header => .str header
      | none => .null),
    ("modules", .arr (source.modules.map fun m =>
      .obj [("name", .str m.name), ("code", .str m.code)]))]

end ObjcBindings.Report
