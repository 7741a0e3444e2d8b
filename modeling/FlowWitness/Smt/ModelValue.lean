import FlowWitness.Program.Constant
import FlowWitness.Text.Quoted

/-!
# Model values

The values that a solver gives to terms, and the constants of a program that
they stand for.  An integer is read as a bit pattern in two's complement.
-/

namespace FlowWitness.Smt

open FlowWitness.Program
open FlowWitness.Text

/-- A value in a solver's model. -/
inductive ModelValue where
  | bool (value : Bool)
  | bitVec (value width : Nat)
  | int (value : Int)
  | string (text : String)
  deriving DecidableEq, Repr

namespace ModelValue

/-- The truth value of a boolean. -/
def truth? : ModelValue → Option Bool
  | bool value => some value
  | _ => none

/-- The bit pattern of a value; strings have none. -/
def bits? : ModelValue → Option Nat
  | bool value => some value.toNat
  | bitVec value _ => some value
  | int value => some (value % (wordCount patternBits : Int)).toNat
  | string _ => none

/-- The text of a value: `true`, `#xff[8]`, `-5`, `"a b"`. -/
def text : ModelValue → String
  | bool true => "true"
  | bool false => "false"
  | bitVec value width =>
    "#x" ++ hexadecimal value ++ "[" ++ toString width ++ "]"
  | int value => toString value
  | string text => quote text

/--
The constant of a type that a value stands for: a truth value at the boolean
type, a bit-vector or an integer at an integer type.
-/
def toConstant? (value : ModelValue) (dataType : DataType) : Option Constant :=
  match value, dataType with
  | bool truth, .boolean => some (.bool truth)
  | bitVec _ _, .integer _ _ | int _, .integer _ _ =>
    value.bits?.bind (fun raw => Constant.ofBits? raw dataType)
  | _, _ => none

end ModelValue

end FlowWitness.Smt
