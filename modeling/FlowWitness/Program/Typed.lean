import FlowWitness.Program.Expression

/-!
# Typed expressions

Expressions that are known to be conditions or numbers, so that they can be
combined without mixing the two up.  A bare number beside a typed expression
adopts the type of that expression: it becomes the constant of that type with
the number's bit pattern, or a signed constant of sixty-four bits where the
type has no integer constants.
-/

namespace FlowWitness.Program

/-- An expression used as a condition. -/
structure BoolExpr where
  expression : Expression
  deriving DecidableEq, Repr

/-- An expression used as a number. -/
structure IntExpr where
  expression : Expression
  deriving DecidableEq, Repr

namespace BoolExpr

/-- A variable, read as a condition. -/
def var (target : Variable) : BoolExpr := ⟨.var target⟩

/-- A fixed truth value. -/
def literal (value : Bool) : BoolExpr := ⟨.constant (.bool value)⟩

/-- The opposite condition. -/
def negation (condition : BoolExpr) : BoolExpr :=
  ⟨.unary .not condition.expression⟩

/-- Two conditions joined by a binary operator. -/
def combine (operator : BinaryOperator) (left right : BoolExpr) : BoolExpr :=
  ⟨.binary operator left.expression right.expression⟩

end BoolExpr

namespace IntExpr

/-- A variable, read as a number. -/
def var (target : Variable) : IntExpr := ⟨.var target⟩

/-- A signed constant of the given width. -/
def signed (value : Int) (bits : Nat) : IntExpr :=
  ⟨.constant (.signed value bits)⟩

/-- An unsigned constant of the given width. -/
def unsigned (value : Nat) (bits : Nat) : IntExpr :=
  ⟨.constant (.unsigned value bits)⟩

/-- The inferred type of the expression. -/
def dataType (number : IntExpr) : DataType :=
  number.expression.dataType

/-- The constant that a bare number becomes at a type. -/
def adopt (value : Int) (dataType : DataType) : Constant :=
  let raw := (value % (wordCount patternBits : Int)).toNat
  match Constant.ofBits? raw dataType with
  | none | some (.bool _) => .signed value 64
  | some constant => constant

/-- A bare number, at the type of the expression it stands beside. -/
def literal (beside : IntExpr) (value : Int) : IntExpr :=
  ⟨.constant (adopt value beside.dataType)⟩

/-- The number with its sign changed. -/
def negation (number : IntExpr) : IntExpr :=
  ⟨.unary .negate number.expression⟩

end IntExpr

/-- What may stand to the right of a number: a number, or a bare one. -/
inductive IntOperand where
  | number (operand : IntExpr)
  | bare (value : Int)
  deriving DecidableEq, Repr

instance : Coe IntExpr IntOperand := ⟨.number⟩

/-- The operand as a number; a bare one adopts the type of the left operand. -/
def IntOperand.beside (left : IntExpr) : IntOperand → IntExpr
  | number operand => operand
  | bare value => left.literal value

namespace IntExpr

/-- A number and an operand joined to a number. -/
def arithmetic (operator : BinaryOperator) (left : IntExpr)
    (right : IntOperand) : IntExpr :=
  ⟨.binary operator left.expression (right.beside left).expression⟩

/-- A number and an operand joined to a condition. -/
def compare (operator : BinaryOperator) (left : IntExpr)
    (right : IntOperand) : BoolExpr :=
  ⟨.binary operator left.expression (right.beside left).expression⟩

end IntExpr

end FlowWitness.Program
