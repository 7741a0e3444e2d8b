import FlowWitness.Exploration.Contract
import FlowWitness.Exploration.VersionMap
import FlowWitness.Program.Operation

/-!
# Encoding programs as terms

An expression becomes a term over the current versions of its variables.
Integers become bit-vectors of their declared width; where the signed and the
unsigned operator differ, the inferred type of the left operand decides.
Encoding checks sorts from the inside out and from left to right, and stops at
the first fault.
-/

namespace FlowWitness.Exploration

open FlowWitness.Graph
open FlowWitness.Program
open FlowWitness.Smt

/-! ## Symbols -/

/-- The sort of the values of a type: integers of one to sixty-four bits. -/
def sortOf : DataType → Except ContractViolation SmtSort
  | .boolean => .ok .bool
  | .integer signed bits =>
    if 1 ≤ bits ∧ bits ≤ maxIntegerBits then .ok (.bitVec bits)
    else .error (.unsupportedDataType (.integer signed bits))
  | .float exponentBits mantissaBits =>
    .error (.unsupportedDataType (.float exponentBits mantissaBits))

/-- The key of a variable's symbols. -/
def keyOf (target : Variable) : Except ContractViolation SymbolKey :=
  match sortOf target.dataType with
  | .ok sort => .ok ⟨target.stem, sort⟩
  | .error violation => .error violation

/-- The marker of a visit to a block: `reach!b3#0`. -/
def reachMarker (block : BlockId) (visit : Nat) : Term :=
  .constant ("reach!" ++ block.text ++ "#" ++ toString visit) .bool

/-! ## Expressions -/

/-- A constant as a literal. -/
def encodeConstant (constant : Constant) : Except ContractViolation Term :=
  match constant with
  | .bool value => .ok (.bool value)
  | other =>
    match sortOf other.dataType with
    | .ok (.bitVec bits) => .ok (.bitVecLiteral other.toBits bits)
    | .ok _ => .error (.unsupportedDataType other.dataType)
    | .error violation => .error violation

/-- The function of a unary operator at a sort. -/
def unaryFunction? : UnaryOperator → SmtSort → Option UnaryFunction
  | .not, .bool => some .not
  | .negate, .bitVec _ => some .bvNeg
  | .complement, .bitVec _ => some .bvNot
  | .complement, .bool => some .not
  | _, _ => none

/-- The function of a binary operator on truth values. -/
def booleanFunction? : BinaryOperator → Option BinaryFunction
  | .and | .bitAnd => some .and
  | .or | .bitOr => some .or
  | .bitXor => some .distinct
  | _ => none

/-- The function of a binary operator on bit-vectors. -/
def bitVecFunction? (signed : Bool) : BinaryOperator → Option BinaryFunction
  | .add => some .bvAdd
  | .subtract => some .bvSub
  | .multiply => some .bvMul
  | .divide => some (if signed then .bvSdiv else .bvUdiv)
  | .remainder => some (if signed then .bvSrem else .bvUrem)
  | .bitAnd => some .bvAnd
  | .bitOr => some .bvOr
  | .bitXor => some .bvXor
  | .shiftLeft => some .bvShl
  | .shiftRight => some (if signed then .bvAshr else .bvLshr)
  | .less => some (if signed then .bvSlt else .bvUlt)
  | .lessOrEqual => some (if signed then .bvSle else .bvUle)
  | .greater => some (if signed then .bvSgt else .bvUgt)
  | .greaterOrEqual => some (if signed then .bvSge else .bvUge)
  | _ => none

/-- The function of a binary operator, other than equality, at a sort. -/
def binaryFunction? (signed : Bool) (operator : BinaryOperator) :
    SmtSort → Option BinaryFunction
  | .bool => booleanFunction? operator
  | .bitVec _ => bitVecFunction? signed operator
  | _ => none

/-- A unary operator on an encoded operand, as part of `expression`. -/
def encodeUnary (expression : Expression) (operator : UnaryOperator)
    (operand : Term) : Except ContractViolation Term :=
  match unaryFunction? operator operand.sort with
  | some function => .ok (.applyUnary function operand)
  | none => .error (.illSorted expression (.unary operator operand.sort))

/--
A binary operator on encoded operands, as part of `expression`.  Equality is
defined at every sort, and inequality is its negation.
-/
def encodeBinary (expression : Expression) (operator : BinaryOperator)
    (signed : Bool) (left right : Term) : Except ContractViolation Term :=
  if left.sort = right.sort then
    match operator with
    | .equal => .ok (.equation left right)
    | .notEqual => .ok (.negation (.equation left right))
    | other =>
      match binaryFunction? signed other left.sort with
      | some function => .ok (.applyBinary function left right)
      | none => .error (.illSorted expression (.binary other left.sort))
  else
    .error (.illSorted expression
      (.operandsDiffer operator left.sort right.sort))

/-- An expression over the current versions of its variables. -/
def encodeExpression (versions : VersionMap) :
    Expression → Except ContractViolation Term
  | .var target =>
    match keyOf target with
    | .ok key => .ok (key.versioned (versions.get key))
    | .error violation => .error violation
  | .constant value => encodeConstant value
  | .unary operator operand =>
    match encodeExpression versions operand with
    | .ok term => encodeUnary (.unary operator operand) operator term
    | .error violation => .error violation
  | .binary operator left right =>
    match encodeExpression versions left with
    | .error violation => .error violation
    | .ok leftTerm =>
      match encodeExpression versions right with
      | .error violation => .error violation
      | .ok rightTerm =>
        encodeBinary (.binary operator left right) operator
          left.dataType.isSigned leftTerm rightTerm

/-! ## Operations -/

/--
An encoded operation: the branch condition of a jump, what holds after it,
the versions after it, and the version it mints, if it is an assignment.
-/
structure EncodedOperation where
  condition : Option Term
  effect : Term
  versions : VersionMap
  minted : Option (SymbolKey × Nat)
  deriving DecidableEq, Repr

/-- The encoding of a block without an operation. -/
def EncodedOperation.nothing (versions : VersionMap) : EncodedOperation :=
  ⟨none, .bool true, versions, none⟩

/-- A jump: its condition must be a truth value. -/
def encodeJump (versions : VersionMap) (condition : Expression) :
    Except ContractViolation EncodedOperation :=
  match encodeExpression versions condition with
  | .error violation => .error violation
  | .ok term =>
    if term.sort = .bool then .ok ⟨some term, .bool true, versions, none⟩
    else .error (.illSorted condition .conditionNotBoolean)

/--
An assignment: the value reads the versions before it, and equals the next
version of the target.
-/
def encodeAssignment (versions : VersionMap) (target : Variable)
    (value : Expression) : Except ContractViolation EncodedOperation :=
  match encodeExpression versions value with
  | .error violation => .error violation
  | .ok term =>
    match keyOf target with
    | .error violation => .error violation
    | .ok key =>
      if term.sort = key.sort then
        let (next, version) := versions.bump key
        .ok ⟨none, .equation (key.versioned version) term, next,
          some (key, version)⟩
      else .error (.illSorted value (.assigned target key.sort term.sort))

/-- The operation of a block over the versions before it. -/
def encodeOperation (block : BlockId) (versions : VersionMap) :
    Option Operation → Except ContractViolation EncodedOperation
  | none => .ok (.nothing versions)
  | some (.jump condition) => encodeJump versions condition
  | some (.assign target value) => encodeAssignment versions target value
  | some (.call signature arguments results) =>
    .error (.unsupportedOperation block
      (Operation.kind (.call signature arguments results)))

end FlowWitness.Exploration
