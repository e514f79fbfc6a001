import UiScenario.Code.File
import UiScenario.Command
import UiScenario.Compile
import UiScenario.Generate.File
import UiScenario.Grammar.Program
import UiScenario.Json.Printer
import UiScenario.Json.Reader
import UiScenario.Main
import UiScenario.Parameter.Read
import UiScenario.Problem.Report
import UiScenario.Selection
import UiScenario.Text.Escaped
import UiScenario.Validation.Program
import UiScenario.Proofs.Lines
import UiScenario.Proofs.Segments
import UiScenario.Proofs.WellFormed
import UiScenario.Proofs.Reading
import UiScenario.Proofs.Spelling
import UiScenario.Proofs.Rendering
import UiScenario.Proofs.Readback
import UiScenario.Proofs.Resolution
import UiScenario.Proofs.Contract
import UiScenario.Proofs.Labels
import UiScenario.Proofs.Occurrences
import UiScenario.Proofs.CodeReads
import UiScenario.Proofs.Needed
import UiScenario.Proofs.Objects
import UiScenario.Proofs.Binding
import UiScenario.Proofs.WellScoped
import UiScenario.Proofs.Fixtures
import UiScenario.Proofs.Completeness
import UiScenario.Proofs.Walk
import UiScenario.Proofs.Violations
import UiScenario.Proofs.Moved
import UiScenario.Proofs.Parallel
import UiScenario.Proofs.ParallelBlocks
import UiScenario.Proofs.ParallelGrammar
import UiScenario.Proofs.ParallelProgram
import UiScenario.Proofs.Progress
import UiScenario.Proofs.Composition
import UiScenario.Proofs.Steady
import UiScenario.Proofs.SteadyGrammar
import UiScenario.Proofs.SteadyStatement
import UiScenario.Proofs.Located
import UiScenario.Proofs.FaultyLine
import UiScenario.Proofs.NamePlaces
import UiScenario.Proofs.Misreading
import UiScenario.Proofs.NameReadback
import UiScenario.Proofs.DataImport
import UiScenario.Proofs.Selecting
import UiScenario.Proofs.Splitting
import UiScenario.Proofs.Reordering
import UiScenario.Proofs.Wording
import UiScenario.Proofs.Agreement
import UiScenario.Proofs.AgreementGrammar
import UiScenario.Proofs.AgreementProgram
import UiScenario.Proofs.Caseless
import UiScenario.Proofs.Openings
import UiScenario.Proofs.BrokenHeader
import UiScenario.Proofs.Literals
import UiScenario.Proofs.RegexLiterals
import UiScenario.Proofs.Reachability
import UiScenario.Proofs.Unreached
import UiScenario.Proofs.Gathering
import UiScenario.Proofs.Typos
import UiScenario.Proofs.Waiting
import UiScenario.Proofs.CodeText
import UiScenario.Proofs.Conditions
import UiScenario.Proofs.Clauses
import UiScenario.Proofs.RowPredicates
import UiScenario.Proofs.CaseTables
import UiScenario.Proofs.Renames
import UiScenario.Proofs.TagFilter
import UiScenario.Proofs.CleanRuns
import UiScenario.Proofs.FeatureTags
import UiScenario.Proofs.Parameters
import UiScenario.Proofs.Captures
import UiScenario.Proofs.Duplicates
import UiScenario.Proofs.UnclosedBlocks
import UiScenario.Proofs.OpenStatements
import UiScenario.Proofs.CodeWriter
