import FlowWitness.Graph.Shape
import FlowWitness.Program.Expression
import FlowWitness.Smt.SmtSort

/-!
# Contract violations

What a search demands of its graph and targets, as the ways in which a graph
can fail to meet it.
-/

namespace FlowWitness.Exploration

open FlowWitness.Graph
open FlowWitness.Program
open FlowWitness.Smt

/-- Why an expression has no sort, or not the one its place asks for. -/
inductive SortFault where
  | unary (operator : UnaryOperator) (operand : SmtSort)
  | operandsDiffer (operator : BinaryOperator) (left right : SmtSort)
  | binary (operator : BinaryOperator) (operands : SmtSort)
  | conditionNotBoolean
  | assigned (target : Variable) (expected actual : SmtSort)
  deriving DecidableEq, Repr

/-- The text of a sort fault. -/
def SortFault.message : SortFault → String
  | .unary operator operand =>
    "'" ++ operator.sign ++ "' cannot be applied to " ++ operand.text
  | .operandsDiffer operator left right =>
    "operands of '" ++ operator.sign ++ "' have sorts " ++ left.text ++
      " and " ++ right.text
  | .binary operator operands =>
    "'" ++ operator.sign ++ "' is not defined on " ++ operands.text
  | .conditionNotBoolean => "branch condition is not boolean"
  | .assigned target expected actual =>
    "assigned to '" ++ target.name ++ "' of sort " ++ expected.text ++
      " but has sort " ++ actual.text

/-- How a graph breaks what the search demands of it. -/
inductive ContractViolation where
  | unsupportedOperation (block : BlockId) (kind : String)
  | unsupportedDataType (dataType : DataType)
  | illSorted (expression : Expression) (fault : SortFault)
  | branchWithoutCondition (block : BlockId)
  | missingBranchTarget (block : BlockId)
  | foreignTarget (block : BlockId)
  | topology (fault : GraphError)
  deriving DecidableEq, Repr

/-- The name of a contract violation. -/
def ContractViolation.code : ContractViolation → String
  | .unsupportedOperation _ _ => "UnsupportedOperation"
  | .unsupportedDataType _ => "UnsupportedDataType"
  | .illSorted _ _ => "IllSorted"
  | .branchWithoutCondition _ => "BranchWithoutCondition"
  | .missingBranchTarget _ => "MissingBranchTarget"
  | .foreignTarget _ => "ForeignTarget"
  | .topology _ => "Topology"

/-- The text of a contract violation. -/
def ContractViolation.message : ContractViolation → String
  | .unsupportedOperation block kind =>
    "block " ++ block.text ++ ": operation '" ++ kind ++
      "' is not supported by symbolic execution"
  | .unsupportedDataType dataType =>
    "data type " ++ dataType.text ++ " has no SMT encoding"
  | .illSorted expression fault =>
    "ill-sorted expression '" ++ expression.text ++ "': " ++ fault.message
  | .branchWithoutCondition block =>
    "block " ++ block.text ++
      " has true/false successors but no conditional jump"
  | .missingBranchTarget block =>
    "block " ++ block.text ++
      " has a conditional jump without a true/false successor pair"
  | .foreignTarget block =>
    "target block " ++ block.text ++ " does not belong to this flow graph"
  | .topology fault => "malformed flow graph: " ++ fault.message

end FlowWitness.Exploration
