import FlowWitness.Program.Expression

/-!
# Operations and blocks

What a block of a flow graph does: decide a branch, assign one variable, or
call another routine.  A call has a text, and no meaning for the search.
-/

namespace FlowWitness.Program

/-- The name and types of a called routine. -/
structure CallSignature where
  name : String
  parameterTypes : List DataType
  returnTypes : List DataType
  deriving DecidableEq, Repr

/-- The one operation of a block. -/
inductive Operation where
  | jump (condition : Expression)
  | assign (target : Variable) (value : Expression)
  | call (signature : CallSignature) (arguments : List Expression)
      (results : Option (List Variable))
  deriving DecidableEq, Repr

namespace Operation

/-- The kind of an operation, by name. -/
def kind : Operation → String
  | jump _ => "ConditionalJump"
  | assign _ _ => "Assignment"
  | call _ _ _ => "Call"

/-- The text of an operation: `if c`, `x = e`, `call f(a, b)`. -/
def text : Operation → String
  | jump condition => "if " ++ condition.text
  | assign target value => target.name ++ " = " ++ value.text
  | call signature arguments _ =>
    "call " ++ signature.name ++ "(" ++
      String.intercalate ", " (arguments.map Expression.text) ++ ")"

end Operation

/--
A block of a flow graph: the entry with its parameters, the exit with what it
returns, or an inner block with at most one operation.
-/
inductive Block where
  | entry (parameters : List Variable)
  | exit (returns : List Expression)
  | inner (operation : Option Operation)
  deriving DecidableEq, Repr

namespace Block

/-- The operation of a block; entry and exit have none. -/
def operation? : Block → Option Operation
  | inner operation => operation
  | _ => none

/-- The kind of a block, by name. -/
def kind : Block → String
  | entry _ => "Entry"
  | exit _ => "Exit"
  | inner _ => "Inner"

end Block

end FlowWitness.Program
