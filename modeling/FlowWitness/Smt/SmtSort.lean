/-!
# Sorts

The sorts of solver terms, with the order used to list symbols.
-/

namespace FlowWitness.Smt

/-- The sort of a term. -/
inductive SmtSort where
  | bool
  | int
  | bitVec (width : Nat)
  | string
  | regLan
  deriving DecidableEq, Repr

namespace SmtSort

/-- The text of a sort in SMT-LIB. -/
def text : SmtSort → String
  | bool => "Bool"
  | int => "Int"
  | bitVec width => "(_ BitVec " ++ toString width ++ ")"
  | string => "String"
  | regLan => "RegLan"

/-- The width of a bit-vector sort. -/
def width? : SmtSort → Option Nat
  | bitVec width => some width
  | _ => none

/-- The place of a sort among the families of sorts. -/
def family : SmtSort → Nat
  | bool => 0
  | int => 1
  | bitVec _ => 2
  | string => 3
  | regLan => 4

/-- Sorts are ordered by family, bit-vectors among themselves by width. -/
def before : SmtSort → SmtSort → Bool
  | bitVec first, bitVec second => first < second
  | first, second => first.family < second.family

end SmtSort

end FlowWitness.Smt
