import FlowWitness.Smt.SmtSort

/-!
# Function symbols

A symbol is built in, and then written as it is, or declared, and then named
by any text at all.  The name of a declared symbol is written so that it is
one symbol of SMT-LIB: the two characters that a quoted symbol cannot hold,
and the mark that escapes them, are replaced by the mark and two hexadecimal
digits, and a result that is not a simple symbol is put between bars.
-/

namespace FlowWitness.Smt

/-! ## Names -/

/-- The replacement of one character of a declared name. -/
def escapeCharacter : Char → List Char
  | '%' => ['%', '2', '5']
  | '|' => ['%', '7', 'C']
  | '\\' => ['%', '5', 'C']
  | other => [other]

/-- A declared name without bars and backslashes. -/
def escapeName (name : List Char) : List Char :=
  name.flatMap escapeCharacter

/-- The characters of a simple symbol. -/
def isSymbolCharacter (character : Char) : Bool :=
  let code := character.toNat
  (48 ≤ code && code ≤ 57) || (65 ≤ code && code ≤ 90) ||
    (97 ≤ code && code ≤ 122) ||
    "~!@$%^&*_-+=<>.?/".toList.contains character

/-- Is this a nonempty run of symbol characters that starts with no digit? -/
def isSimpleSymbol : List Char → Bool
  | [] => false
  | first :: rest =>
    let code := first.toNat
    !(48 ≤ code && code ≤ 57) && (first :: rest).all isSymbolCharacter

/-- A declared name as a symbol of SMT-LIB. -/
def symbolCharacters (name : List Char) : List Char :=
  let escaped := escapeName name
  if isSimpleSymbol escaped then escaped else '|' :: escaped ++ ['|']

/-! ## Symbols -/

/-- Does a symbol belong to a theory, or is it introduced by its user? -/
inductive SymbolKind where
  | builtin
  | declared
  deriving DecidableEq, Repr

/-- The sorts of up to three arguments. -/
inductive ArgumentSorts where
  | none
  | one (first : SmtSort)
  | two (first second : SmtSort)
  | three (first second third : SmtSort)
  deriving DecidableEq, Repr

/-- The argument sorts in order. -/
def ArgumentSorts.toList : ArgumentSorts → List SmtSort
  | .none => []
  | .one first => [first]
  | .two first second => [first, second]
  | .three first second third => [first, second, third]

/-- The argument sorts in the list, if there are at most three. -/
def ArgumentSorts.ofList? : List SmtSort → Option ArgumentSorts
  | [] => some .none
  | [first] => some (.one first)
  | [first, second] => some (.two first second)
  | [first, second, third] => some (.three first second third)
  | _ => Option.none

/-- A function symbol with its signature; a constant has no arguments. -/
structure FunctionSymbol where
  name : String
  arguments : ArgumentSorts
  result : SmtSort
  kind : SymbolKind
  deriving DecidableEq, Repr

namespace FunctionSymbol

/-- A declared constant. -/
def constant (name : String) (sort : SmtSort) : FunctionSymbol :=
  ⟨name, .none, sort, .declared⟩

/-- Does the symbol belong to a theory? -/
def isBuiltin (symbol : FunctionSymbol) : Bool :=
  symbol.kind == .builtin

/-- The argument sorts in order. -/
def argumentSorts (symbol : FunctionSymbol) : List SmtSort :=
  symbol.arguments.toList

/-- The number of arguments. -/
def arity (symbol : FunctionSymbol) : Nat :=
  symbol.argumentSorts.length

/-- The symbol as it is written in SMT-LIB. -/
def text (symbol : FunctionSymbol) : String :=
  if symbol.isBuiltin then symbol.name
  else String.ofList (symbolCharacters symbol.name.toList)

/-- The command that introduces a declared symbol. -/
def declaration? (symbol : FunctionSymbol) : Option String :=
  if symbol.isBuiltin then none
  else some ("(declare-fun " ++ symbol.text ++ " (" ++
    String.intercalate " " (symbol.argumentSorts.map SmtSort.text) ++ ") " ++
    symbol.result.text ++ ")")

end FunctionSymbol

end FlowWitness.Smt
