import FlowWitness.Smt.ModelValue
import FlowWitness.Smt.SExpr
import FlowWitness.Text.Numeral

/-!
# Reading model values

The spellings of values in a solver's response: `true` and `false`, binary
and hexadecimal bit-vectors, the indexed form of a bit-vector, integers and
their negations, and strings.  Bit-vectors have at most 128 bits and integers
lie within 128 bits of two's complement.
-/

namespace FlowWitness.Smt

open FlowWitness.Program
open FlowWitness.Text

/-- Integers of the reader lie from `-integerBound` below `integerBound`. -/
def integerBound : Nat := wordCount (patternBits - 1)

/--
The opposite of an integer of the reader.  The least one has none among them,
and wraps to itself.
-/
def opposite (value : Int) : Int :=
  if value = -(integerBound : Int) then value else -value

/-- Widths lie below this bound. -/
def widthBound : Nat := wordCount 32

/-- Read the digits of a bit-vector, each standing for `bitsPerDigit` bits. -/
def readBitVec (radix bitsPerDigit : Nat) (digits : List Char) :
    Option ModelValue :=
  if digits.isEmpty || patternBits < digits.length * bitsPerDigit then none
  else (readUnsigned radix (wordCount patternBits) digits).map (fun value =>
    .bitVec value (digits.length * bitsPerDigit))

/-- Read the value that an atom spells. -/
def readAtomValue (characters : List Char) : Option ModelValue :=
  match characters with
  | ['t', 'r', 'u', 'e'] => some (.bool true)
  | ['f', 'a', 'l', 's', 'e'] => some (.bool false)
  | '#' :: 'b' :: digits => readBitVec 2 1 digits
  | '#' :: 'x' :: digits => readBitVec 16 4 digits
  | other => (readSigned 10 integerBound other).map .int

/-- Read `(_ bvN W)`, given its second and third item. -/
def readIndexedBitVec (literal width : List Char) : Option ModelValue :=
  match literal with
  | 'b' :: 'v' :: digits => do
    let value ← readUnsigned 10 (wordCount patternBits) digits
    let bits ← readUnsigned 10 widthBound width
    return .bitVec value bits
  | _ => none

/-- Read a value. -/
def readValue : SExpr → Option ModelValue
  | .atom text => readAtomValue text.toList
  | .str text => some (.string text)
  | .list [.atom "_", .atom literal, .atom width] =>
    readIndexedBitVec literal.toList width.toList
  | .list [.atom "-", .atom magnitude] =>
    (readSigned 10 integerBound magnitude.toList).map (fun value =>
      .int (opposite value))
  | .list _ => none

end FlowWitness.Smt
