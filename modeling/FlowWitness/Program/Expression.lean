import FlowWitness.Program.Constant
import FlowWitness.Program.Variable

/-!
# Expressions

Value trees over variables and typed constants.  An expression has a text and
an inferred type whether or not it is well typed: the type of a comparison or
connective is boolean, and every other operator takes the type of its first
operand.
-/

namespace FlowWitness.Program

/-! ## Operators -/

/-- The operators of one operand. -/
inductive UnaryOperator where
  | not
  | negate
  | complement
  deriving DecidableEq, Repr

/-- The sign a unary operator is written with. -/
def UnaryOperator.sign : UnaryOperator → String
  | .not => "!"
  | .negate => "-"
  | .complement => "~"

/-- All unary operators, in their fixed order. -/
def UnaryOperator.all : List UnaryOperator :=
  [.not, .negate, .complement]

/-- The operators of two operands. -/
inductive BinaryOperator where
  | add
  | subtract
  | multiply
  | divide
  | remainder
  | bitAnd
  | bitOr
  | bitXor
  | shiftLeft
  | shiftRight
  | equal
  | notEqual
  | less
  | lessOrEqual
  | greater
  | greaterOrEqual
  | and
  | or
  deriving DecidableEq, Repr

/-- The sign a binary operator is written with. -/
def BinaryOperator.sign : BinaryOperator → String
  | .add => "+"
  | .subtract => "-"
  | .multiply => "*"
  | .divide => "/"
  | .remainder => "%"
  | .bitAnd => "&"
  | .bitOr => "|"
  | .bitXor => "^"
  | .shiftLeft => "<<"
  | .shiftRight => ">>"
  | .equal => "=="
  | .notEqual => "!="
  | .less => "<"
  | .lessOrEqual => "<="
  | .greater => ">"
  | .greaterOrEqual => ">="
  | .and => "&&"
  | .or => "||"

/-- Does the operator give a truth value, whatever its operands are? -/
def BinaryOperator.yieldsBoolean : BinaryOperator → Bool
  | .equal | .notEqual | .less | .lessOrEqual | .greater | .greaterOrEqual
  | .and | .or => true
  | _ => false

/-- All binary operators, in their fixed order. -/
def BinaryOperator.all : List BinaryOperator :=
  [.add, .subtract, .multiply, .divide, .remainder, .bitAnd, .bitOr, .bitXor,
    .shiftLeft, .shiftRight, .equal, .notEqual, .less, .lessOrEqual, .greater,
    .greaterOrEqual, .and, .or]

/-! ## Expressions -/

/-- A value computed from variables and constants. -/
inductive Expression where
  | var (target : Variable)
  | constant (value : Constant)
  | unary (operator : UnaryOperator) (operand : Expression)
  | binary (operator : BinaryOperator) (left right : Expression)
  deriving DecidableEq, Repr

namespace Expression

/-- The inferred type of an expression. -/
def dataType : Expression → DataType
  | var target => target.dataType
  | constant value => value.dataType
  | unary .not _ => .boolean
  | unary .negate operand => operand.dataType
  | unary .complement operand => operand.dataType
  | binary operator left _ =>
    if operator.yieldsBoolean then .boolean else left.dataType

/-- Append the variables of an expression that are not yet in `seen`. -/
def collectVariables : Expression → List Variable → List Variable
  | var target, seen =>
    if seen.any (fun other => other.same target) then seen else seen ++ [target]
  | constant _, seen => seen
  | unary _ operand, seen => collectVariables operand seen
  | binary _ left right, seen =>
    collectVariables right (collectVariables left seen)

/-- The variables of an expression, each once, in order of first occurrence. -/
def allVariables (expression : Expression) : List Variable :=
  collectVariables expression []

/-- The text of an expression: `x`, `!(x)`, `(x + 5i8)`. -/
def text : Expression → String
  | var target => target.name
  | constant value => value.text
  | unary operator operand => operator.sign ++ "(" ++ operand.text ++ ")"
  | binary operator left right =>
    "(" ++ left.text ++ " " ++ operator.sign ++ " " ++ right.text ++ ")"

end Expression

end FlowWitness.Program
