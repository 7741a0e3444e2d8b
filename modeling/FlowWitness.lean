import FlowWitness.BitWidth
import FlowWitness.Exploration.ConditionStack
import FlowWitness.Exploration.Contract
import FlowWitness.Exploration.Encoding
import FlowWitness.Exploration.Outcome
import FlowWitness.Exploration.PathState
import FlowWitness.Exploration.Search
import FlowWitness.Exploration.VersionMap
import FlowWitness.Exploration.VersionSlots
import FlowWitness.Exploration.Worklist
import FlowWitness.Failure
import FlowWitness.Graph.Basic
import FlowWitness.Graph.Builder
import FlowWitness.Graph.Pruning
import FlowWitness.Graph.Ranking
import FlowWitness.Graph.Shape
import FlowWitness.IoFault
import FlowWitness.Json.Basic
import FlowWitness.Json.Reader
import FlowWitness.Json.Records
import FlowWitness.Program.Constant
import FlowWitness.Program.DataType
import FlowWitness.Program.Expression
import FlowWitness.Program.Notation
import FlowWitness.Program.Operation
import FlowWitness.Program.Typed
import FlowWitness.Program.Variable
import FlowWitness.Proofs.Exploration.Accounting
import FlowWitness.Proofs.Exploration.AcyclicSweep
import FlowWitness.Proofs.Exploration.Agreement
import FlowWitness.Proofs.Exploration.Asking
import FlowWitness.Proofs.Exploration.AssertedJoins
import FlowWitness.Proofs.Exploration.BoundedCompleteness
import FlowWitness.Proofs.Exploration.Conservation
import FlowWitness.Proofs.Exploration.ContractViolations
import FlowWitness.Proofs.Exploration.Coverage
import FlowWitness.Proofs.Exploration.DeclaredVariables
import FlowWitness.Proofs.Exploration.Departures
import FlowWitness.Proofs.Exploration.EncodingMeaning
import FlowWitness.Proofs.Exploration.Indifference
import FlowWitness.Proofs.Exploration.Joins
import FlowWitness.Proofs.Exploration.Lockstep
import FlowWitness.Proofs.Exploration.Naming
import FlowWitness.Proofs.Exploration.PlainMaps
import FlowWitness.Proofs.Exploration.Questions
import FlowWitness.Proofs.Exploration.Queueing
import FlowWitness.Proofs.Exploration.SearchEnd
import FlowWitness.Proofs.Exploration.SearchLog
import FlowWitness.Proofs.Exploration.SearchOrder
import FlowWitness.Proofs.Exploration.SearchSteps
import FlowWitness.Proofs.Exploration.SessionDiscipline
import FlowWitness.Proofs.Exploration.Sessions
import FlowWitness.Proofs.Exploration.SharedVersions
import FlowWitness.Proofs.Exploration.SingleAssignment
import FlowWitness.Proofs.Exploration.SortedCalls
import FlowWitness.Proofs.Exploration.StackSharing
import FlowWitness.Proofs.Exploration.StackUnion
import FlowWitness.Proofs.Exploration.SymbolsApart
import FlowWitness.Proofs.Exploration.Tracking
import FlowWitness.Proofs.Exploration.TypedBuilders
import FlowWitness.Proofs.Exploration.Typing
import FlowWitness.Proofs.Exploration.UnreachableSoundness
import FlowWitness.Proofs.Exploration.Versions
import FlowWitness.Proofs.Exploration.Vocabulary
import FlowWitness.Proofs.Exploration.WitnessSoundness
import FlowWitness.Proofs.Exploration.WitnessValues
import FlowWitness.Proofs.Graph.BuildScripts
import FlowWitness.Proofs.Graph.BuiltGraphs
import FlowWitness.Proofs.Graph.Execution
import FlowWitness.Proofs.Graph.Paths
import FlowWitness.Proofs.Graph.Pruning
import FlowWitness.Proofs.Graph.RankOrder
import FlowWitness.Proofs.Graph.Ranking
import FlowWitness.Proofs.Graph.Resemblance
import FlowWitness.Proofs.Program.BitPatterns
import FlowWitness.Proofs.Program.Evaluation
import FlowWitness.Proofs.Program.WordArithmetic
import FlowWitness.Proofs.Smt.Completion
import FlowWitness.Proofs.Smt.Grammar
import FlowWitness.Proofs.Smt.LegalSymbols
import FlowWitness.Proofs.Smt.Legibility
import FlowWitness.Proofs.Smt.LiteralValues
import FlowWitness.Proofs.Smt.Semantics
import FlowWitness.Proofs.Smt.Signatures
import FlowWitness.Proofs.Smt.Spelling
import FlowWitness.Proofs.Smt.StringConstraints
import FlowWitness.Proofs.Smt.StringMeaning
import FlowWitness.Proofs.Smt.SymbolText
import FlowWitness.Proofs.Smt.WellSorted
import FlowWitness.Proofs.Solver.Exhaustive
import FlowWitness.Proofs.Solver.Honesty
import FlowWitness.Proofs.Solver.Introductions
import FlowWitness.Proofs.Solver.ModelAccess
import FlowWitness.Proofs.Solver.ResponseFraming
import FlowWitness.Proofs.Solver.SessionSteps
import FlowWitness.Proofs.Solver.Transcript
import FlowWitness.Proofs.Value
import FlowWitness.Settings.Basic
import FlowWitness.Settings.Document
import FlowWitness.Settings.Text
import FlowWitness.Smt.FunctionSymbol
import FlowWitness.Smt.ModelValue
import FlowWitness.Smt.SExpr
import FlowWitness.Smt.SExprReader
import FlowWitness.Smt.SmtSort
import FlowWitness.Smt.StringConstraint
import FlowWitness.Smt.StringNotation
import FlowWitness.Smt.Term
import FlowWitness.Smt.Theory
import FlowWitness.Smt.ValueReader
import FlowWitness.Solver.Basic
import FlowWitness.Solver.Dialogue
import FlowWitness.Solver.Framing
import FlowWitness.Solver.Scripted
import FlowWitness.Solver.Session
import FlowWitness.Solver.StandIn
import FlowWitness.Text.Blank
import FlowWitness.Text.Numeral
import FlowWitness.Text.Printable
import FlowWitness.Text.Quoted
import FlowWitness.Text.Utf8
import FlowWitness.Yaml.Cursor
import FlowWitness.Yaml.Layout
import FlowWitness.Yaml.Node
import FlowWitness.Yaml.Resolution
import FlowWitness.Yaml.Scalar
import FlowWitness.Yaml.Token
import FlowWitness.Yaml.Writer
