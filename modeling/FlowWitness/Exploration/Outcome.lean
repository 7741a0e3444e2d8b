import FlowWitness.Program.Constant
import FlowWitness.Program.Variable

/-!
# Outcomes

What a search finds: parameter values that lead to a target, that no target
can be reached, or neither.
-/

namespace FlowWitness.Exploration

open FlowWitness.Program

/-- Parameter values that lead to a target, in order of the parameters. -/
structure Witness where
  values : List (Variable × Constant)
  deriving DecidableEq, Repr

namespace Witness

/-- The value of a parameter. -/
def get? (witness : Witness) (parameter : Variable) : Option Constant :=
  (witness.values.find? (fun entry => entry.1.same parameter)).map Prod.snd

/-- The text of a witness: the values in braces. -/
def text (witness : Witness) : String :=
  "\x7b" ++ String.intercalate ", " (witness.values.map (fun entry =>
    entry.1.name ++ " = " ++ entry.2.text)) ++ "\x7d"

end Witness

/-- The result of a search. -/
inductive Outcome where
  | reachable (witness : Witness)
  | unreachable
  | unknown
  deriving DecidableEq, Repr

namespace Outcome

/-- Was a target reached? -/
def isReachable : Outcome → Bool
  | reachable _ => true
  | _ => false

/-- The values that lead to a target. -/
def witness? : Outcome → Option Witness
  | reachable witness => some witness
  | _ => none

/-- The name of an outcome. -/
def name : Outcome → String
  | reachable _ => "reachable"
  | unreachable => "unreachable"
  | unknown => "unknown"

/-- The text of an outcome, with the witness if there is one. -/
def text : Outcome → String
  | reachable witness => "reachable " ++ witness.text
  | other => other.name

end Outcome

/-- The counters of a search. -/
structure Statistics where
  prunedBlocks : Nat
  retainedBlocks : Nat
  batches : Nat
  statesMerged : Nat
  solverChecks : Nat
  unknownChecks : Nat
  droppedStates : Nat
  deriving DecidableEq, Repr

end FlowWitness.Exploration
