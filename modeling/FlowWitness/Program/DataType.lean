/-!
# Data types

The types of program variables: booleans, integers of a declared width and
signedness, and floating-point formats.  A float has a type and a text, but
no encoding for a solver.
-/

namespace FlowWitness.Program

/--
The type of a program value.
-/
inductive DataType where
  | boolean
  | integer (signed : Bool) (bits : Nat)
  | float (exponentBits mantissaBits : Nat)
  deriving DecidableEq, Repr

namespace DataType

/--
Is this the type of truth values?
-/
def isBoolean : DataType → Bool
  | boolean => true
  | _ => false

/--
Is this an integer type, of any width?
-/
def isInteger : DataType → Bool
  | integer _ _ => true
  | _ => false

/--
Is this a signed integer type?  Booleans and floats are not.
-/
def isSigned : DataType → Bool
  | integer signed _ => signed
  | _ => false

/--
The declared width of an integer type.
-/
def bits? : DataType → Option Nat
  | integer _ bits => some bits
  | _ => none

/--
The text of a type: `bool`, `i32`, `u8`, `f[11:53]`.
-/
def text : DataType → String
  | boolean => "bool"
  | integer true bits => "i" ++ toString bits
  | integer false bits => "u" ++ toString bits
  | float exponentBits mantissaBits =>
    "f[" ++ toString exponentBits ++ ":" ++ toString mantissaBits ++ "]"

end DataType

end FlowWitness.Program
