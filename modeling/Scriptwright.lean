import Scriptwright.Binding
import Scriptwright.Builder
import Scriptwright.CaseFile.Expectation
import Scriptwright.CaseFile.Parse
import Scriptwright.CaseFile.Run
import Scriptwright.Catalog
import Scriptwright.CommandLine.Arguments
import Scriptwright.CommandLine.BindingSpec
import Scriptwright.CommandLine.Run
import Scriptwright.Document.Basic
import Scriptwright.Document.Json
import Scriptwright.Document.Report
import Scriptwright.Document.Settings
import Scriptwright.Document.Toml
import Scriptwright.Document.Toml.Lexical
import Scriptwright.Document.Toml.Scalar
import Scriptwright.Document.Toml.Table
import Scriptwright.Document.Toml.Value
import Scriptwright.Finding
import Scriptwright.Fragment.Library
import Scriptwright.Fragment.Order
import Scriptwright.Fragment.Standard
import Scriptwright.Identifier
import Scriptwright.Literal.Declaration
import Scriptwright.Literal.Escape
import Scriptwright.Literal.Read
import Scriptwright.Literal.Render
import Scriptwright.Main
import Scriptwright.Number.Binary64
import Scriptwright.Number.Format
import Scriptwright.Number.Read
import Scriptwright.Number.Shortest
import Scriptwright.Proofs.AcceptedScripts
import Scriptwright.Proofs.BoundNames
import Scriptwright.Proofs.BracketBalance
import Scriptwright.Proofs.BracketProblems
import Scriptwright.Proofs.BuildOutcomes
import Scriptwright.Proofs.BuilderSteps
import Scriptwright.Proofs.CallTokens
import Scriptwright.Proofs.CharacterPlaces
import Scriptwright.Proofs.ConsistentReports
import Scriptwright.Proofs.DataCode
import Scriptwright.Proofs.DataLines
import Scriptwright.Proofs.DataScripts
import Scriptwright.Proofs.DeclarationLines
import Scriptwright.Proofs.DeclarationReading
import Scriptwright.Proofs.DeclaredFunctions
import Scriptwright.Proofs.DefinedFunctions
import Scriptwright.Proofs.DependencyClosure
import Scriptwright.Proofs.DependencyOrder
import Scriptwright.Proofs.DependencyReach
import Scriptwright.Proofs.EscapeRoundTrip
import Scriptwright.Proofs.FindingKinds
import Scriptwright.Proofs.FindingLines
import Scriptwright.Proofs.FindingWordings
import Scriptwright.Proofs.FlaggedTokens
import Scriptwright.Proofs.FragmentCode
import Scriptwright.Proofs.GatedRuns
import Scriptwright.Proofs.GrammarReading
import Scriptwright.Proofs.HandleNames
import Scriptwright.Proofs.Indentation
import Scriptwright.Proofs.Initializers
import Scriptwright.Proofs.InjectedValues
import Scriptwright.Proofs.KnownCalls
import Scriptwright.Proofs.LiteralEnds
import Scriptwright.Proofs.LiteralGrammar
import Scriptwright.Proofs.LoopDepths
import Scriptwright.Proofs.LoopNesting
import Scriptwright.Proofs.MissingFunctions
import Scriptwright.Proofs.MissingTokens
import Scriptwright.Proofs.MovedLiterals
import Scriptwright.Proofs.NearestDoubles
import Scriptwright.Proofs.NumberTexts
import Scriptwright.Proofs.Numerals
import Scriptwright.Proofs.OrderedReplacements
import Scriptwright.Proofs.PaddedCalls
import Scriptwright.Proofs.PaddedPatterns
import Scriptwright.Proofs.PaddedStructure
import Scriptwright.Proofs.PatternMatches
import Scriptwright.Proofs.QuickIssues
import Scriptwright.Proofs.RenderedCases
import Scriptwright.Proofs.RenderedSelections
import Scriptwright.Proofs.RuleReach
import Scriptwright.Proofs.ScanState
import Scriptwright.Proofs.ScriptCode
import Scriptwright.Proofs.ScriptStructure
import Scriptwright.Proofs.SealedContent
import Scriptwright.Proofs.SealedPatterns
import Scriptwright.Proofs.SealedReading
import Scriptwright.Proofs.SearchTexts
import Scriptwright.Proofs.SelfContained
import Scriptwright.Proofs.StableOrder
import Scriptwright.Proofs.StepOrder
import Scriptwright.Proofs.TwinScans
import Scriptwright.Proofs.UniqueReading
import Scriptwright.Proofs.WrittenBindings
import Scriptwright.Proofs.WrittenLiterals
import Scriptwright.Report
import Scriptwright.Runner
import Scriptwright.Script.Calls
import Scriptwright.Script.Delimiters
import Scriptwright.Script.Layout
import Scriptwright.Script.LoopShape
import Scriptwright.Script.Pattern
import Scriptwright.Script.Rules
import Scriptwright.Script.Scan
import Scriptwright.Script.Symbols
import Scriptwright.ScriptError
import Scriptwright.Settings
import Scriptwright.Text.Basic
import Scriptwright.Text.CharClass
import Scriptwright.Text.CharRanges
import Scriptwright.Text.NameMap
import Scriptwright.Validator
import Scriptwright.Value
