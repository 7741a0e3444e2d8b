import FlowWitness.Program.DataType

/-!
# Variables

A variable is known by its number: two variables are the same exactly when
their numbers are, whatever their names and types.  The number is part of
the stem of every solver symbol made from the variable.
-/

namespace FlowWitness.Program

/--
A program variable.
-/
structure Variable where
  id : Nat
  name : String
  dataType : DataType
  deriving DecidableEq, Repr

namespace Variable

/--
Are these the same variable?
-/
def same (first second : Variable) : Bool :=
  first.id == second.id

/--
The stem of the variable's solver symbols: name and number, `x!7`.
-/
def stem (var : Variable) : String :=
  var.name ++ "!" ++ toString var.id

/--
The full description of a variable: `x#7: i32`.
-/
def describe (var : Variable) : String :=
  var.name ++ "#" ++ toString var.id ++ ": " ++ var.dataType.text

/--
Number variables from `first` on, in the given order.
-/
def enumerate (first : Nat) : List (String × DataType) → List Variable
  | [] => []
  | (name, dataType) :: rest =>
    ⟨first, name, dataType⟩ :: enumerate (first + 1) rest

end Variable

end FlowWitness.Program
