import FlowWitness.Exploration.Contract
import FlowWitness.Graph.Shape
import FlowWitness.Settings.Basic
import FlowWitness.Smt.Term
import FlowWitness.Solver.Basic

/-!
# Failures

Everything that can go wrong, by where it goes wrong.  A malformed program is
never the solver's fault: such failures are told apart from those of the
solver and of the settings.
-/

namespace FlowWitness

open FlowWitness.Exploration
open FlowWitness.Graph
open FlowWitness.Settings
open FlowWitness.Smt
open FlowWitness.Solver

/-- Why there is no result. -/
inductive Failure where
  | contract (violation : ContractViolation)
  | graph (error : GraphError)
  | term (error : TermError)
  | solver (error : SolverError)
  | settings (error : SettingsError)
  deriving DecidableEq, Repr

namespace Failure

/-- Is the program at fault, and not the solver or the settings? -/
def isContractViolation : Failure → Bool
  | contract _ | graph _ | term _ => true
  | solver _ | settings _ => false

/-- The name of a failure: where it arose and what it is. -/
def code : Failure → String
  | contract violation => "ContractViolation." ++ violation.code
  | graph error => "FlowGraph." ++ error.code
  | term error => "Term." ++ error.code
  | solver error => "Solver." ++ error.code
  | settings error => "Config." ++ error.code

/-- The text of a failure. -/
def message : Failure → String
  | contract violation => "contract violation: " ++ violation.message
  | graph error => "flow graph error: " ++ error.message
  | term error => "term error: " ++ error.message
  | solver error => "solver error: " ++ error.message
  | settings error => "configuration error: " ++ error.message

end Failure

end FlowWitness
