import FlowWitness.IoFault
import FlowWitness.Smt.ModelValue
import FlowWitness.Smt.Term

/-!
# Solvers

A solver is what it answers: for each call, a function from the solver's
state to an answer and the state after it.  A session is opened, takes
assertions, decides them, gives values in its model, and is closed.
-/

namespace FlowWitness.Solver

open FlowWitness.Smt

/-- The answer to a satisfiability check. -/
inductive Verdict where
  | sat
  | unsat
  | unknown
  deriving DecidableEq, Repr

namespace Verdict

/-- The text of a verdict. -/
def text : Verdict → String
  | sat => "sat"
  | unsat => "unsat"
  | unknown => "unknown"

/-- Is the verdict that there is a model? -/
def isSat : Verdict → Bool
  | sat => true
  | _ => false

/-- The verdict that a word spells. -/
def ofText? : String → Option Verdict
  | "sat" => some sat
  | "unsat" => some unsat
  | "unknown" => some unknown
  | _ => none

end Verdict

/--
Why a solver gives no answer.  `unanswered` stands for a wait without a limit
that never ends.
-/
inductive SolverError where
  | io (fault : IoFault)
  | spawn (program : String) (fault : IoFault)
  | protocol (message : String)
  | unexpectedResponse (command response : String)
  | processExited
  | noModel
  | unanswered
  deriving DecidableEq, Repr

/-- The name of a solver error. -/
def SolverError.code : SolverError → String
  | .io _ => "Io"
  | .spawn _ _ => "Spawn"
  | .protocol _ => "Protocol"
  | .unexpectedResponse _ _ => "UnexpectedResponse"
  | .processExited => "ProcessExited"
  | .noModel => "NoModel"
  | .unanswered => "Unanswered"

/-- The text of a solver error. -/
def SolverError.message : SolverError → String
  | .io fault => "solver I/O error: " ++ fault.message
  | .spawn program fault =>
    "failed to spawn solver '" ++ program ++ "': " ++ fault.message
  | .protocol message => "solver reported an error: " ++ message
  | .unexpectedResponse command response =>
    "unexpected solver response to '" ++ command ++ "': " ++ response
  | .processExited => "solver process exited unexpectedly"
  | .noModel => "no model available (last check was not sat)"
  | .unanswered => "solver does not answer"

/-- A solver with states of type `State`. -/
structure Backend (State : Type) where
  openSession : State → Except SolverError Unit × State
  assertTerm : Term → State → Except SolverError Unit × State
  checkSat : State → Except SolverError Verdict × State
  evaluate : Term → State → Except SolverError ModelValue × State
  closeSession : State → Except SolverError Unit × State

end FlowWitness.Solver
