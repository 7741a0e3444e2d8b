import FlowWitness.Program.Constant
import FlowWitness.Smt.FunctionSymbol
import FlowWitness.Smt.Theory

/-!
# Terms

Trees of literals and function applications.  Applications of built-in
functions take the argument sorts from the operands without checking them,
so building a term never fails; only the folds over lists simplify, by
leaving out neutral elements.
-/

namespace FlowWitness.Smt

open FlowWitness.Program

/-- A term for a solver. -/
inductive Term where
  | bool (value : Bool)
  | bitVec (value width : Nat)
  | nullary (symbol : FunctionSymbol)
  | unary (symbol : FunctionSymbol) (argument : Term)
  | binary (symbol : FunctionSymbol) (first second : Term)
  | ternary (symbol : FunctionSymbol) (first second third : Term)
  deriving DecidableEq, Repr

/-- Why a function cannot be applied. -/
inductive TermError where
  | arityMismatch (name : String) (expected actual : Nat)
  deriving DecidableEq, Repr

/-- The name of a term error. -/
def TermError.code : TermError → String
  | .arityMismatch _ _ _ => "ArityMismatch"

/-- The text of a term error. -/
def TermError.message : TermError → String
  | .arityMismatch name expected actual =>
    "function '" ++ name ++ "' expects " ++ toString expected ++
      " argument(s), got " ++ toString actual

namespace Term

/-! ## Parts -/

/-- The sort of a term; of an application, the result sort of its function. -/
def sort : Term → SmtSort
  | bool _ => .bool
  | bitVec _ width => .bitVec width
  | nullary symbol => symbol.result
  | unary symbol _ => symbol.result
  | binary symbol _ _ => symbol.result
  | ternary symbol _ _ _ => symbol.result

/-- The function of an application. -/
def function? : Term → Option FunctionSymbol
  | bool _ => none
  | bitVec _ _ => none
  | nullary symbol => some symbol
  | unary symbol _ => some symbol
  | binary symbol _ _ => some symbol
  | ternary symbol _ _ _ => some symbol

/-- The arguments of an application. -/
def arguments : Term → List Term
  | unary _ argument => [argument]
  | binary _ first second => [first, second]
  | ternary _ first second third => [first, second, third]
  | _ => []

/-- Is this the literal `true`? -/
def isTrue : Term → Bool
  | bool value => value
  | _ => false

/-- Is this the literal `false`? -/
def isFalse : Term → Bool
  | bool value => !value
  | _ => false

/-- Apply a function to as many arguments as it takes. -/
def apply (symbol : FunctionSymbol) (arguments : List Term) :
    Except TermError Term :=
  match symbol.arguments, arguments with
  | .none, [] => .ok (nullary symbol)
  | .one _, [argument] => .ok (unary symbol argument)
  | .two _ _, [first, second] => .ok (binary symbol first second)
  | .three _ _ _, [first, second, third] =>
    .ok (ternary symbol first second third)
  | _, _ => .error (.arityMismatch symbol.name symbol.arity arguments.length)

/-! ## Text and declarations -/

/-- The text of a term in SMT-LIB. -/
def text : Term → String
  | bool true => "true"
  | bool false => "false"
  | bitVec value width =>
    "(_ bv" ++ toString value ++ " " ++ toString width ++ ")"
  | nullary symbol => symbol.text
  | unary symbol argument => "(" ++ symbol.text ++ " " ++ argument.text ++ ")"
  | binary symbol first second =>
    "(" ++ symbol.text ++ " " ++ first.text ++ " " ++ second.text ++ ")"
  | ternary symbol first second third =>
    "(" ++ symbol.text ++ " " ++ first.text ++ " " ++ second.text ++ " " ++
      third.text ++ ")"

/-- Add a declared symbol that is not yet in the list. -/
def noteSymbol (symbol : FunctionSymbol) (seen : List FunctionSymbol) :
    List FunctionSymbol :=
  if symbol.isBuiltin || seen.contains symbol then seen else seen ++ [symbol]

/-- Append the declared symbols of a term that are not yet in `seen`. -/
def collectDeclarations : Term → List FunctionSymbol → List FunctionSymbol
  | bool _, seen => seen
  | bitVec _ _, seen => seen
  | nullary symbol, seen => noteSymbol symbol seen
  | unary symbol argument, seen =>
    argument.collectDeclarations (noteSymbol symbol seen)
  | binary symbol first second, seen =>
    second.collectDeclarations
      (first.collectDeclarations (noteSymbol symbol seen))
  | ternary symbol first second third, seen =>
    third.collectDeclarations
      (second.collectDeclarations
        (first.collectDeclarations (noteSymbol symbol seen)))

/-- The declared symbols of a term, each once, in order of first occurrence. -/
def declarations (term : Term) : List FunctionSymbol :=
  term.collectDeclarations []

/-! ## Literals and constants -/

/-- A bit-vector literal; the number is reduced to the width. -/
def bitVecLiteral (value width : Nat) : Term :=
  bitVec (value % patternCount width) width

/-- A declared constant. -/
def constant (name : String) (sort : SmtSort) : Term :=
  nullary (.constant name sort)

/-- A built-in symbol without arguments. -/
def builtin (name : String) (sort : SmtSort) : Term :=
  nullary ⟨name, .none, sort, .builtin⟩

/-- An integer literal; a negative one is written as a negation. -/
def numeral (value : Int) : Term :=
  builtin
    (if value < 0 then "(- " ++ toString value.natAbs ++ ")"
    else toString value.natAbs) .int

/-- Write every quote of a text twice. -/
def doubleQuotes : List Char → List Char
  | [] => []
  | '"' :: rest => '"' :: '"' :: doubleQuotes rest
  | other :: rest => other :: doubleQuotes rest

/-- A string literal. -/
def stringLiteral (value : String) : Term :=
  builtin (String.ofList ('"' :: doubleQuotes value.toList ++ ['"'])) .string

/-! ## Applications of built-in functions -/

/-- A built-in function of one argument. -/
def applyUnary (function : UnaryFunction) (argument : Term) : Term :=
  unary
    ⟨function.name, .one argument.sort, function.result argument.sort, .builtin⟩
    argument

/-- A built-in function of two arguments. -/
def applyBinary (function : BinaryFunction) (first second : Term) : Term :=
  binary
    ⟨function.name, .two first.sort second.sort, function.result first.sort,
      .builtin⟩
    first second

/-- The negation of a condition. -/
def negation (condition : Term) : Term := applyUnary .not condition

/-- The conjunction of two conditions. -/
def conjunction (first second : Term) : Term := applyBinary .and first second

/-- The disjunction of two conditions. -/
def disjunction (first second : Term) : Term := applyBinary .or first second

/-- The first condition implies the second. -/
def implication (first second : Term) : Term :=
  applyBinary .implies first second

/-- The two terms are equal. -/
def equation (first second : Term) : Term := applyBinary .equal first second

/-- One of two terms, by a condition; the result has the sort of the first. -/
def choice (condition whenTrue whenFalse : Term) : Term :=
  ternary
    ⟨"ite", .three .bool whenTrue.sort whenFalse.sort, whenTrue.sort, .builtin⟩
    condition whenTrue whenFalse

/-- The conjunction of all terms, from left to right, without `true`. -/
def conjoin (terms : List Term) : Term :=
  match terms.filter (fun term => !term.isTrue) with
  | [] => bool true
  | first :: rest => rest.foldl conjunction first

/-- The disjunction of all terms, from left to right, without `false`. -/
def disjoin (terms : List Term) : Term :=
  match terms.filter (fun term => !term.isFalse) with
  | [] => bool false
  | first :: rest => rest.foldl disjunction first

/-! ## Regular languages -/

/-- The one-character strings between two characters. -/
def reRange (low high : Char) : Term :=
  applyBinary .reRange
    (stringLiteral (String.ofList [low])) (stringLiteral (String.ofList [high]))

/-- All one-character strings. -/
def reAllChar : Term := builtin "re.allchar" .regLan

/-- No string at all. -/
def reNone : Term := builtin "re.none" .regLan

end Term

end FlowWitness.Smt
