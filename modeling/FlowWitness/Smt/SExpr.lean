import FlowWitness.Smt.Term

/-!
# S-expressions

The trees that a solver's responses are read into: atoms, string literals and
lists.  A quoted symbol is the atom of its content.
-/

namespace FlowWitness.Smt

/-- An s-expression. -/
inductive SExpr where
  | atom (text : String)
  | str (text : String)
  | list (items : List SExpr)
  deriving Repr

namespace SExpr

/-- The text of an atom. -/
def atom? : SExpr → Option String
  | atom text => some text
  | _ => none

/-- The items of a list. -/
def items? : SExpr → Option (List SExpr)
  | list items => some items
  | _ => none

/-- The message of a response of the form `(error "message")`. -/
def errorMessage? : SExpr → Option String
  | list [atom "error", str message] => some message
  | _ => none

mutual

/-- The text of an expression; quotes in strings are doubled. -/
def text : SExpr → String
  | atom text => text
  | str text => String.ofList ('"' :: Term.doubleQuotes text.toList ++ ['"'])
  | list items => "(" ++ itemsText items ++ ")"

/-- The texts of the items, one space apart. -/
def itemsText : List SExpr → String
  | [] => ""
  | [item] => item.text
  | item :: next :: rest => item.text ++ " " ++ itemsText (next :: rest)

end

end SExpr

end FlowWitness.Smt
