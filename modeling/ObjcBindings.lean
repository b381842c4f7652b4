/-
  ObjcBindings
  ────────────────────────────────
  **RUST BINDINGS FOR OBJECTIVE-C DECLARATIONS.**

  The library reads a dump of Objective-C declarations, indexes it, finds the
  C declarations that its interfaces, protocols and categories use, and writes
  one Rust module per framework.
-/
import ObjcBindings.Bindings.Code
import ObjcBindings.Bindings.Container
import ObjcBindings.Bindings.Item
import ObjcBindings.Bindings.Name
import ObjcBindings.Bindings.Plan
import ObjcBindings.Bindings.Prelude
import ObjcBindings.Bindings.Source
import ObjcBindings.Bindings.Supertraits
import ObjcBindings.Bindings.Trait
import ObjcBindings.Bindings.TraitRef
import ObjcBindings.Command.Arguments
import ObjcBindings.Command.Dialogue
import ObjcBindings.Command.Host
import ObjcBindings.Command.Load
import ObjcBindings.Command.Path
import ObjcBindings.Command.Report
import ObjcBindings.Command.Run
import ObjcBindings.Command.Trouble
import ObjcBindings.Failure
import ObjcBindings.Header.Layout
import ObjcBindings.Header.Rule
import ObjcBindings.Interop.Fitness
import ObjcBindings.Interop.Idiom
import ObjcBindings.Interop.Primitive
import ObjcBindings.Interop.Scope
import ObjcBindings.Interop.Spelling
import ObjcBindings.Main
import ObjcBindings.Proofs.Crossing
import ObjcBindings.Proofs.ReferenceClosure
import ObjcBindings.Proofs.RememberedAnswers
import ObjcBindings.Proofs.TableContents
import ObjcBindings.Schema.Decl
import ObjcBindings.Schema.Decode
import ObjcBindings.Schema.Encode
import ObjcBindings.Schema.Read
import ObjcBindings.Schema.TypeExpr
import ObjcBindings.Sdk
import ObjcBindings.Settings
import ObjcBindings.Symbol.Reach
import ObjcBindings.Symbol.Search
import ObjcBindings.Symbol.Suggestion
import ObjcBindings.Symbol.Table
import ObjcBindings.Text.EditDistance
import ObjcBindings.Text.Ident
import ObjcBindings.Text.Json
import ObjcBindings.Text.Json.Printer
import ObjcBindings.Text.Json.Reader
import ObjcBindings.Text.Json.Shape
import ObjcBindings.Text.LetterCase
import ObjcBindings.Text.LetterCase.Table
import ObjcBindings.Text.Lines
import ObjcBindings.Text.NameSet
import ObjcBindings.Text.Pattern
import ObjcBindings.Text.Pattern.Reader
import ObjcBindings.Text.Pattern.Table
import ObjcBindings.Text.Substring
import ObjcBindings.Text.Toml
import ObjcBindings.Text.Toml.Reader
import ObjcBindings.Text.Utf8
import ObjcBindings.Proofs.ScopeContents
import ObjcBindings.Proofs.Placement
import ObjcBindings.Proofs.SpelledNames
import ObjcBindings.Proofs.DraftModules
import ObjcBindings.Proofs.FinishedModules
import ObjcBindings.Proofs.CategoryMerging
import ObjcBindings.Proofs.SupertraitClosure
import ObjcBindings.Proofs.PlannedSupertraits
import ObjcBindings.Proofs.SupertraitCoherence
import ObjcBindings.Proofs.WrittenTypes
import ObjcBindings.Proofs.ClosedOutput
import ObjcBindings.Proofs.Emission
import ObjcBindings.Proofs.ReachedDeclarations
import ObjcBindings.Proofs.LayerAgreement
import ObjcBindings.Proofs.StructLayout
import ObjcBindings.Proofs.QuestionHistory
import ObjcBindings.Proofs.DistinctNames
import ObjcBindings.Proofs.TypeNames
import ObjcBindings.Proofs.TableAgreement
import ObjcBindings.Proofs.ScopeAgreement
import ObjcBindings.Proofs.PlanAgreement
import ObjcBindings.Proofs.BindingsAgreement
import ObjcBindings.Proofs.InsertedDeclaration
import ObjcBindings.Proofs.UnreferencedDeclarations
import ObjcBindings.Proofs.RedundantDeclarations
import ObjcBindings.Proofs.FittingTypes
import ObjcBindings.Proofs.PlacedOnce
import ObjcBindings.Proofs.SuperclassChains
import ObjcBindings.Proofs.PrintedJson
import ObjcBindings.Proofs.EncodedSchema
import ObjcBindings.Proofs.NestingLimit
import ObjcBindings.Proofs.FilledDefaults
import ObjcBindings.Proofs.RereadUnits
import ObjcBindings.Proofs.Registrations
import ObjcBindings.Proofs.DeclarationOrder
import ObjcBindings.Proofs.CanonicalNames
import ObjcBindings.Proofs.AcyclicReferences
import ObjcBindings.Proofs.PlanFailures
import ObjcBindings.Proofs.RecordedKinds
import ObjcBindings.Proofs.TransparentWrappers
import ObjcBindings.Proofs.WrappedClasses
import ObjcBindings.Proofs.PatternMatches
import ObjcBindings.Proofs.SdkLayout
import ObjcBindings.Proofs.FewestEdits
import ObjcBindings.Proofs.RankedSuggestions
import ObjcBindings.Proofs.SelectorTables
import ObjcBindings.Proofs.ModuleNames
import ObjcBindings.Proofs.EndingSearch
import ObjcBindings.Proofs.EndingExaminations
import ObjcBindings.Proofs.CountedNames
import ObjcBindings.Proofs.ListedModules
