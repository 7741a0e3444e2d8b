import FlowWitness.Exploration.Outcome
import FlowWitness.Graph.Basic
import FlowWitness.Json.Reader
import FlowWitness.Program.Expression
import FlowWitness.Smt.ModelValue
import FlowWitness.Smt.SmtSort

/-!
# Records in JSON

The JSON form of the program's data.  A case without content is its name; a
case with content is an object with the name as its only member.  Content of
several fields is an object of them, and may also be given as an array of
their values in order; members that are not fields are passed over, and a
field may not be given twice.
-/

namespace FlowWitness.Json

open FlowWitness.Exploration
open FlowWitness.Graph
open FlowWitness.Program
open FlowWitness.Smt
open FlowWitness.Text

/-! ## Fields -/

/-- A truth value. -/
def asTruth? : JsonValue → Option Bool
  | .bool value => some value
  | _ => none

/-- A text. -/
def asText? : JsonValue → Option String
  | .string text => some text
  | _ => none

/-- A number without sign, fraction and exponent, below a bound. -/
def asNatural? (bound : Nat) : JsonValue → Option Nat
  | .number spelling =>
    (readDigits 10 spelling).filter (fun value => decide (value < bound))
  | _ => none

/--
A whole number from `-bound` up to `bound - 1`.  Whether zero may carry a sign
depends on the field.
-/
def asInteger? (bound : Nat) (signedZero : Bool) : JsonValue → Option Int
  | .number ('-' :: digits) =>
    match readDigits 10 digits with
    | some 0 => if signedZero then some 0 else none
    | some magnitude => if magnitude ≤ bound then some (-magnitude) else none
    | none => none
  | other => (asNatural? bound other).map Int.ofNat

/-- The bound of widths. -/
def widthLimit : Nat := wordCount 32

/-- The only value given for a field. -/
def field? (members : List (String × JsonValue)) (name : String) :
    Option JsonValue :=
  match members.filter (fun member => member.1 == name) with
  | [member] => some member.2
  | _ => none

/-- The values of two fields. -/
def pair? (first second : String) :
    JsonValue → Option (JsonValue × JsonValue)
  | .object members => do
    return (← field? members first, ← field? members second)
  | .array [left, right] => some (left, right)
  | _ => none

/-- The name of a case, and its content. -/
def case? : JsonValue → Option (String × Option JsonValue)
  | .string name => some (name, none)
  | .object [(name, content)] => some (name, some content)
  | _ => none

/-- Is this the content of a case without fields? -/
def isUnit : Option JsonValue → Bool
  | none | some .null => true
  | _ => false

/-- The one of the named cases without content that a value stands for. -/
def named? {Case : Type} (cases : List (String × Case)) (json : JsonValue) :
    Option Case := do
  let (name, content) ← case? json
  if isUnit content then cases.lookup name else none

/-- An object with one member. -/
def tagged (name : String) (content : JsonValue) : JsonValue :=
  .object [(name, content)]

end FlowWitness.Json

/-! ## Program data -/

namespace FlowWitness.Program

open FlowWitness.Json

/-- The JSON form of a type. -/
def DataType.toJson : DataType → JsonValue
  | .boolean => .string "Boolean"
  | .integer signed bits =>
    tagged "Integer"
      (.object [("signed", .bool signed), ("bits", .natural bits)])
  | .float exponentBits mantissaBits =>
    tagged "Float" (.object [("exponent_bits", .natural exponentBits),
      ("mantissa_bits", .natural mantissaBits)])

/-- Read a type. -/
def DataType.ofJson? (json : JsonValue) : Option DataType := do
  match ← case? json with
  | ("Boolean", content) => if isUnit content then return .boolean else none
  | ("Integer", some content) =>
    let (signed, bits) ← pair? "signed" "bits" content
    return .integer (← asTruth? signed) (← asNatural? widthLimit bits)
  | ("Float", some content) =>
    let (exponent, mantissa) ← pair? "exponent_bits" "mantissa_bits" content
    return .float (← asNatural? widthLimit exponent)
      (← asNatural? widthLimit mantissa)
  | _ => none

/-- The JSON form of a constant. -/
def Constant.toJson : Constant → JsonValue
  | .bool value => tagged "Bool" (.bool value)
  | .signed value bits =>
    tagged "Signed"
      (.object [("value", .integer value), ("bits", .natural bits)])
  | .unsigned value bits =>
    tagged "Unsigned"
      (.object [("value", .natural value), ("bits", .natural bits)])

/-- Read a constant; its number has at most sixty-four bits. -/
def Constant.ofJson? (json : JsonValue) : Option Constant := do
  match ← case? json with
  | ("Bool", some content) => return .bool (← asTruth? content)
  | ("Signed", some content) =>
    let (value, bits) ← pair? "value" "bits" content
    return .signed (← asInteger? (wordCount 63) false value)
      (← asNatural? widthLimit bits)
  | ("Unsigned", some content) =>
    let (value, bits) ← pair? "value" "bits" content
    return .unsigned (← asNatural? (wordCount 64) value)
      (← asNatural? widthLimit bits)
  | _ => none

/-- The name of a unary operator in JSON. -/
def UnaryOperator.jsonName : UnaryOperator → String
  | .not => "Not"
  | .negate => "Neg"
  | .complement => "BitNot"

/-- Read a unary operator. -/
def UnaryOperator.ofJson? : JsonValue → Option UnaryOperator :=
  named? (UnaryOperator.all.map (fun operator => (operator.jsonName, operator)))

/-- The name of a binary operator in JSON. -/
def BinaryOperator.jsonName : BinaryOperator → String
  | .add => "Add"
  | .subtract => "Sub"
  | .multiply => "Mul"
  | .divide => "Div"
  | .remainder => "Rem"
  | .bitAnd => "BitAnd"
  | .bitOr => "BitOr"
  | .bitXor => "BitXor"
  | .shiftLeft => "Shl"
  | .shiftRight => "Shr"
  | .equal => "Eq"
  | .notEqual => "Ne"
  | .less => "Lt"
  | .lessOrEqual => "Le"
  | .greater => "Gt"
  | .greaterOrEqual => "Ge"
  | .and => "And"
  | .or => "Or"

/-- Read a binary operator. -/
def BinaryOperator.ofJson? : JsonValue → Option BinaryOperator :=
  named? (BinaryOperator.all.map (fun operator => (operator.jsonName, operator)))

end FlowWitness.Program

/-! ## Edge kinds -/

namespace FlowWitness.Graph

open FlowWitness.Json

/-- The name of an edge kind in JSON. -/
def EdgeKind.jsonName : EdgeKind → String
  | .onTrue => "True"
  | .onFalse => "False"
  | .unconditional => "Unconditional"

/-- Read an edge kind. -/
def EdgeKind.ofJson? : JsonValue → Option EdgeKind :=
  named? (EdgeKind.all.map (fun kind => (kind.jsonName, kind)))

end FlowWitness.Graph

/-! ## Solver data -/

namespace FlowWitness.Smt

open FlowWitness.Json
open FlowWitness.Program

/-- The JSON form of a sort. -/
def SmtSort.toJson : SmtSort → JsonValue
  | .bool => .string "Bool"
  | .int => .string "Int"
  | .bitVec width => tagged "BitVec" (.natural width)
  | .string => .string "String"
  | .regLan => .string "RegLan"

/-- Read a sort. -/
def SmtSort.ofJson? (json : JsonValue) : Option SmtSort := do
  match ← case? json with
  | ("BitVec", some content) => return .bitVec (← asNatural? widthLimit content)
  | _ => named? [("Bool", .bool), ("Int", .int), ("String", .string),
      ("RegLan", .regLan)] json

/-- The JSON form of a model value. -/
def ModelValue.toJson : ModelValue → JsonValue
  | .bool value => tagged "Bool" (.bool value)
  | .bitVec value width =>
    tagged "BitVec"
      (.object [("value", .natural value), ("width", .natural width)])
  | .int value => tagged "Int" (.integer value)
  | .string text => tagged "String" (.string text)

/-- Read a model value; its number has at most 128 bits. -/
def ModelValue.ofJson? (json : JsonValue) : Option ModelValue := do
  match ← case? json with
  | ("Bool", some content) => return .bool (← asTruth? content)
  | ("BitVec", some content) =>
    let (value, width) ← pair? "value" "width" content
    return .bitVec (← asNatural? (wordCount patternBits) value)
      (← asNatural? widthLimit width)
  | ("Int", some content) =>
    return .int (← asInteger? (wordCount (patternBits - 1)) true content)
  | ("String", some content) => return .string (← asText? content)
  | _ => none

end FlowWitness.Smt

/-! ## Outcomes -/

namespace FlowWitness.Exploration

open FlowWitness.Json

/-- The JSON form of an outcome. -/
def Outcome.toJson : Outcome → JsonValue
  | .reachable witness =>
    .object [("result", .string "reachable"),
      ("model", .object [("values", .array (witness.values.map (fun entry =>
        .array [.object [("name", .string entry.1.name),
          ("data_type", entry.1.dataType.toJson)], entry.2.toJson])))])]
  | other => .object [("result", .string other.name)]

/-- The JSON form of the counters of a search. -/
def Statistics.toJson (statistics : Statistics) : JsonValue :=
  .object [("pruned_blocks", .natural statistics.prunedBlocks),
    ("retained_blocks", .natural statistics.retainedBlocks),
    ("batches", .natural statistics.batches),
    ("states_merged", .natural statistics.statesMerged),
    ("solver_checks", .natural statistics.solverChecks),
    ("unknown_checks", .natural statistics.unknownChecks),
    ("dropped_states", .natural statistics.droppedStates)]

end FlowWitness.Exploration

/-! ## Any record -/

namespace FlowWitness.Json

open FlowWitness.Graph
open FlowWitness.Program
open FlowWitness.Smt

/-- The kinds of records that stand on their own. -/
inductive RecordKind where
  | dataType
  | constant
  | unaryOperator
  | binaryOperator
  | edgeKind
  | sort
  | modelValue
  deriving DecidableEq, Repr

namespace RecordKind

/-- A record as it is written, and its text. -/
def form {Record : Type} (read : JsonValue → Option Record)
    (write : Record → JsonValue) (text : Record → String) (json : JsonValue) :
    Option (JsonValue × String) :=
  (read json).map (fun record => (write record, text record))

/-- Read a record of a kind: how it is written again, and its text. -/
def readAs (kind : RecordKind) (json : JsonValue) :
    Option (JsonValue × String) :=
  match kind with
  | dataType => form DataType.ofJson? DataType.toJson DataType.text json
  | constant => form Constant.ofJson? Constant.toJson Constant.text json
  | unaryOperator =>
    form UnaryOperator.ofJson? (fun operator => .string operator.jsonName)
      UnaryOperator.sign json
  | binaryOperator =>
    form BinaryOperator.ofJson? (fun operator => .string operator.jsonName)
      BinaryOperator.sign json
  | edgeKind =>
    form EdgeKind.ofJson? (fun kind => .string kind.jsonName) EdgeKind.text json
  | sort => form SmtSort.ofJson? SmtSort.toJson SmtSort.text json
  | modelValue => form ModelValue.ofJson? ModelValue.toJson ModelValue.text json

end RecordKind

end FlowWitness.Json
