import FlowWitness.BitWidth
import FlowWitness.Program.DataType

/-!
# Constants

A typed constant keeps its number as it was written, which may be wider than
the declared width; only its bit pattern is reduced.  A pattern is at most
128 bits wide, and reading a pattern back at a type of one to sixty-four bits
gives the number of that type congruent to it.
-/

namespace FlowWitness.Program

/--
The widest bit pattern.
-/
def patternBits : Nat := 128

/--
How many patterns there are of a width; widths past the widest pattern count
as the widest.
-/
def patternCount (bits : Nat) : Nat :=
  wordCount (min bits patternBits)

/--
The widest integer that has a constant for each of its patterns.
-/
def maxIntegerBits : Nat := 64

/--
A constant of a program.
-/
inductive Constant where
  | bool (value : Bool)
  | signed (value : Int) (bits : Nat)
  | unsigned (value : Nat) (bits : Nat)
  deriving DecidableEq, Repr

namespace Constant

/--
The type a constant is declared with.
-/
def dataType : Constant → DataType
  | bool _ => .boolean
  | signed _ bits => .integer true bits
  | unsigned _ bits => .integer false bits

/--
The bit pattern of a constant: its number modulo the patterns of its width.
-/
def toBits : Constant → Nat
  | bool value => value.toNat
  | signed value bits => (value % (patternCount bits : Int)).toNat
  | unsigned value bits => value % patternCount bits

/--
The constant of a type with the given pattern.  The pattern is cut to the
width and, at a signed type, its top bit is the sign; types without a
constant for each pattern have none.
-/
def ofBits? (raw : Nat) : DataType → Option Constant
  | .boolean => some (bool (raw % 2 == 1))
  | .integer isSigned bits =>
    if 1 ≤ bits ∧ bits ≤ maxIntegerBits then
      if isSigned then
        some (signed (Int.bmod raw (wordCount bits)) bits)
      else
        some (unsigned (raw % wordCount bits) bits)
    else none
  | .float _ _ => none

/--
The truth value of a boolean constant.
-/
def truth? : Constant → Option Bool
  | bool value => some value
  | _ => none

/--
The number of an integer constant, as it was written.
-/
def number? : Constant → Option Int
  | bool _ => none
  | signed value _ => some value
  | unsigned value _ => some value

/--
The text of a constant: `true`, `-5i8`, `5u8`.
-/
def text : Constant → String
  | bool true => "true"
  | bool false => "false"
  | signed value bits => toString value ++ "i" ++ toString bits
  | unsigned value bits => toString value ++ "u" ++ toString bits

end Constant

end FlowWitness.Program
