import FlowWitness.BitWidth
import FlowWitness.Program.Operation
import FlowWitness.Proofs.Value

/-!
# Evaluating expressions

What an expression is worth on concrete values: fixed-width arithmetic in
two's complement.  A word is read as a number, with or without a sign, the
number is computed with, and the result is reduced to the width.  The type
inferred for the left operand says whether words have a sign, which matters
to division, remainder, right shift and order.

Division by zero gives all ones, or one for a negative dividend; a remainder
by zero is the dividend; and shifting by the width or more leaves nothing but
copies of the sign.

An expression that is not well typed has no value.
-/

namespace FlowWitness.Program

/-! ## Environments -/

/-- A value of each type for every variable. -/
structure Environment where
  truth : Variable → Bool
  word : Variable → (width : Nat) → BitVec width

namespace Environment

/-- The value of a variable; floats have none. -/
def read (environment : Environment) (target : Variable) : Option Value :=
  match target.dataType with
  | .boolean => some (.bool (environment.truth target))
  | .integer _ bits => some (.word bits (environment.word target bits))
  | .float _ _ => none

/-- Give a new value to a variable, which is known by its number. -/
def assign (environment : Environment) (target : Variable) :
    Value → Environment
  | .bool value =>
    { environment with
      truth := fun other =>
        if other.same target then value else environment.truth other }
  | .word width bits =>
    { environment with
      word := fun other otherWidth =>
        if same : width = otherWidth ∧ other.same target then
          bits.cast same.1
        else environment.word other otherWidth }

/-- Two environments with the same values for the given variables. -/
def AgreeOn (scope : List Variable) (first second : Environment) : Prop :=
  ∀ target ∈ scope, first.read target = second.read target

end Environment

/-! ## Operators -/

/-- A word as a number, with or without a sign. -/
def numberOf (signed : Bool) {width : Nat} (bits : BitVec width) : Int :=
  if signed then bits.toInt else bits.toNat

/-- The quotient of two numbers, rounded toward zero. -/
def truncatedQuotient (first second : Int) : Int :=
  if second = 0 then if first < 0 then 1 else -1
  else first.tdiv second

/-- The remainder of two numbers, with the sign of the first. -/
def truncatedRemainder (first second : Int) : Int :=
  if second = 0 then first else first.tmod second

/-- A number with its digits moved up, in a word of the given width. -/
def shiftedUp (width : Nat) (number : Int) (amount : Nat) : Int :=
  if width ≤ amount then 0 else number * (wordCount amount : Int)

/-- A number with its digits moved down, in a word of the given width. -/
def shiftedDown (width : Nat) (number : Int) (amount : Nat) : Int :=
  if width ≤ amount then if number < 0 then -1 else 0
  else number / (wordCount amount : Int)

/-- A unary operator on a value. -/
def UnaryOperator.apply : UnaryOperator → Value → Option Value
  | .not, .bool value => some (.bool (!value))
  | .complement, .bool value => some (.bool (!value))
  | .negate, .word width bits => some (.word width (.ofInt width (-bits.toInt)))
  | .complement, .word width bits => some (.word width (~~~bits))
  | _, _ => none

namespace BinaryOperator

/-- A binary operator on truth values. -/
def onTruths (operator : BinaryOperator) (first second : Bool) : Option Value :=
  match operator with
  | .and | .bitAnd => some (.bool (first && second))
  | .or | .bitOr => some (.bool (first || second))
  | .bitXor | .notEqual => some (.bool (first != second))
  | .equal => some (.bool (first == second))
  | _ => none

/-- A binary operator on words, with or without a sign. -/
def onWords (operator : BinaryOperator) (signed : Bool) (width : Nat)
    (first second : BitVec width) : Option Value :=
  let left := numberOf signed first
  let right := numberOf signed second
  let reduced (number : Int) : Value := .word width (.ofInt width number)
  match operator with
  | .add => some (reduced (left + right))
  | .subtract => some (reduced (left - right))
  | .multiply => some (reduced (left * right))
  | .divide => some (reduced (truncatedQuotient left right))
  | .remainder => some (reduced (truncatedRemainder left right))
  | .bitAnd => some (.word width (first &&& second))
  | .bitOr => some (.word width (first ||| second))
  | .bitXor => some (.word width (first ^^^ second))
  | .shiftLeft => some (reduced (shiftedUp width left second.toNat))
  | .shiftRight => some (reduced (shiftedDown width left second.toNat))
  | .equal => some (.bool (left == right))
  | .notEqual => some (.bool (left != right))
  | .less => some (.bool (decide (left < right)))
  | .lessOrEqual => some (.bool (decide (left ≤ right)))
  | .greater => some (.bool (decide (left > right)))
  | .greaterOrEqual => some (.bool (decide (left ≥ right)))
  | .and | .or => none

/-- A binary operator on two values of one sort. -/
def apply (operator : BinaryOperator) (signed : Bool) :
    Value → Value → Option Value :=
  Value.onPairs operator.onTruths (operator.onWords signed)

end BinaryOperator

/-! ## Expressions -/

/-- The value that a constant stands for: its number reduced to its width. -/
def Constant.value : Constant → Value
  | .bool value => .bool value
  | .signed value bits => .word bits (.ofInt bits value)
  | .unsigned value bits => .word bits (.ofNat bits value)

namespace Expression

/-- The value of an expression, if it is well typed. -/
def eval (environment : Environment) : Expression → Option Value
  | .var target => environment.read target
  | .constant value => some value.value
  | .unary operator operand => (operand.eval environment).bind operator.apply
  | .binary operator left right =>
    (left.eval environment).bind (fun first =>
      (right.eval environment).bind (fun second =>
        operator.apply left.dataType.isSigned first second))

/-- The variables of an expression, with repetition. -/
def mentioned : Expression → List Variable
  | .var target => [target]
  | .constant _ => []
  | .unary _ operand => operand.mentioned
  | .binary _ left right => left.mentioned ++ right.mentioned

/-- The value of an expression depends on its variables only. -/
theorem eval_congr
    {first second : Environment} (expression : Expression)
    (agreement : Environment.AgreeOn expression.mentioned first second) :
    expression.eval first = expression.eval second := by
  induction expression with
  | var target => exact agreement target List.mem_cons_self
  | constant value => rfl
  | unary operator operand induction =>
      simp only [eval, induction agreement]
  | binary operator left right leftInduction rightInduction =>
      have leftAgreement :
          Environment.AgreeOn left.mentioned first second :=
        fun target member =>
          agreement target (List.mem_append_left _ member)
      have rightAgreement :
          Environment.AgreeOn right.mentioned first second :=
        fun target member =>
          agreement target (List.mem_append_right _ member)
      simp only [eval, leftInduction leftAgreement,
        rightInduction rightAgreement]

end Expression

/-- The variables of an operation that a search looks at. -/
def Operation.mentioned : Operation → List Variable
  | .jump condition => condition.mentioned
  | .assign target value => target :: value.mentioned
  | .call _ _ _ => []

end FlowWitness.Program
