import FlowWitness.Smt.ModelValue
import FlowWitness.Smt.SmtSort

/-!
# Values

What a program computes with and what a model gives to a symbol: truth values
and words of a fixed width.  A word has no sign of its own; whoever reads it
as a number says whether its top bit counts as a sign.
-/

namespace FlowWitness

open FlowWitness.Program
open FlowWitness.Smt

/-- A truth value or a word. -/
inductive Value where
  | bool (value : Bool)
  | word (width : Nat) (bits : BitVec width)
  deriving DecidableEq

namespace Value

/-- The sort of the symbols that can have the value. -/
def sort : Value → SmtSort
  | bool _ => .bool
  | word width _ => .bitVec width

/-- Is this a value of the type? -/
def hasType : Value → DataType → Bool
  | bool _, .boolean => true
  | word width _, .integer _ bits => width == bits
  | _, _ => false

/-- The value as a solver reports it: a word with its own width. -/
def toModel : Value → ModelValue
  | bool value => .bool value
  | word width bits => .bitVec bits.toNat width

/-- Compute with two truth values. -/
def onTruths (compute : Bool → Bool → Option Value) : Value → Value → Option Value
  | bool first, bool second => compute first second
  | _, _ => none

/-- Compute with two words of one width. -/
def onWords
    (compute : (width : Nat) → BitVec width → BitVec width → Option Value) :
    Value → Value → Option Value
  | word width first, word other second =>
    if same : other = width then compute width first (second.cast same)
    else none
  | _, _ => none

/-- Compute with two values of one sort. -/
def onPairs
    (truths : Bool → Bool → Option Value)
    (words : (width : Nat) → BitVec width → BitVec width → Option Value) :
    Value → Value → Option Value
  | bool first, bool second => truths first second
  | word width first, word other second =>
    onWords words (word width first) (word other second)
  | _, _ => none

@[simp]
theorem onTruths_bool
    (compute : Bool → Bool → Option Value)
    (first second : Bool) :
    onTruths compute (bool first) (bool second) = compute first second :=
  rfl

@[simp]
theorem onWords_word
    (compute : (width : Nat) → BitVec width → BitVec width → Option Value)
    (width : Nat) (first second : BitVec width) :
    onWords compute (word width first) (word width second) =
      compute width first second := by
  simp [onWords]

end Value

end FlowWitness
