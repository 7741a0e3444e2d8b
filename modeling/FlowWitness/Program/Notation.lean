import FlowWitness.Program.Expression
import FlowWitness.Text.Numeral

/-!
# Reading programs

Types and constants are read from short texts, and expressions from words in
postfix order: operands come before their operator, so there are no
parentheses, and each word changes the stack of operands in one way.
-/

namespace FlowWitness.Program

open FlowWitness.Text

/-- Read the width of a type. -/
def readWidth (characters : List Char) : Option Nat :=
  readUnsigned 10 (wordCount 32) characters

/-- Read a type: `bool`, `i32`, `u8`, or a float by its widths, `f11:53`. -/
def DataType.read (text : String) : Option DataType :=
  match text.toList with
  | ['b', 'o', 'o', 'l'] => some .boolean
  | 'i' :: bits => (readWidth bits).map (DataType.integer true)
  | 'u' :: bits => (readWidth bits).map (DataType.integer false)
  | 'f' :: widths =>
    match widths.span (fun character => character != ':') with
    | (exponentBits, ':' :: mantissaBits) =>
      (readWidth exponentBits).bind (fun exponent =>
        (readWidth mantissaBits).map (DataType.float exponent))
    | _ => none
  | _ => none

/--
Read a constant: `true`, `false`, or a number of at most sixty-four bits with
its type, `-5i8`.  The number need not fit the type.
-/
def Constant.read (text : String) : Option Constant :=
  match text with
  | "true" => some (.bool true)
  | "false" => some (.bool false)
  | other =>
    match other.toList.span (fun character =>
      character != 'i' && character != 'u') with
    | (value, 'i' :: bits) =>
      (readSigned 10 (wordCount 63) value).bind (fun number =>
        (readWidth bits).map (Constant.signed number))
    | (value, 'u' :: bits) =>
      (readUnsigned 10 (wordCount 64) value).bind (fun number =>
        (readWidth bits).map (Constant.unsigned number))
    | _ => none

/-- The word of a unary operator; a minus sign is the binary operator. -/
def UnaryOperator.word : UnaryOperator → String
  | .not => "!"
  | .negate => "neg"
  | .complement => "~"

namespace Expression

/-- Read an operand: a variable by its place, `$2`, or a constant. -/
def readOperand (scope : List Variable) (word : String) :
    Option Expression :=
  match word.toList with
  | '$' :: place =>
    (readUnsigned 10 (wordCount 64) place).bind (fun index =>
      scope[index]?.map Expression.var)
  | _ => (Constant.read word).map Expression.constant

/-- Take one word: an operator replaces its operands, an operand is added. -/
def takeWord (scope : List Variable) (stack : List Expression)
    (word : String) : Option (List Expression) :=
  match UnaryOperator.all.find? (fun operator => operator.word == word) with
  | some operator =>
    match stack with
    | operand :: rest => some (.unary operator operand :: rest)
    | _ => none
  | none =>
    match BinaryOperator.all.find? (fun operator => operator.sign == word) with
    | some operator =>
      match stack with
      | right :: left :: rest => some (.binary operator left right :: rest)
      | _ => none
    | none => (readOperand scope word).map (fun operand => operand :: stack)

/-- Read the words of exactly one expression. -/
def readWords (scope : List Variable) (words : List String) :
    Option Expression :=
  match words.foldlM (takeWord scope) [] with
  | some [expression] => some expression
  | _ => none

end Expression

end FlowWitness.Program
