import FlowWitness.Smt.SmtSort

/-!
# Built-in functions

The functions of the core, bit-vector, integer and string theories that terms
are built from, each with its name in SMT-LIB and the sort of its result.
-/

namespace FlowWitness.Smt

/-- The built-in functions of one argument. -/
inductive UnaryFunction where
  | not
  | bvNeg
  | bvNot
  | strLen
  | strToRe
  | reStar
  | rePlus
  | reOpt
  deriving DecidableEq, Repr

namespace UnaryFunction

/-- The name of the function. -/
def name : UnaryFunction → String
  | not => "not"
  | bvNeg => "bvneg"
  | bvNot => "bvnot"
  | strLen => "str.len"
  | strToRe => "str.to_re"
  | reStar => "re.*"
  | rePlus => "re.+"
  | reOpt => "re.opt"

/-- The sort of the result, given the sort of the argument. -/
def result (function : UnaryFunction) (argument : SmtSort) : SmtSort :=
  match function with
  | not => .bool
  | bvNeg | bvNot => argument
  | strLen => .int
  | strToRe | reStar | rePlus | reOpt => .regLan

/-- All functions of one argument, in their fixed order. -/
def all : List UnaryFunction :=
  [.not, .bvNeg, .bvNot, .strLen, .strToRe, .reStar, .rePlus, .reOpt]

/-- The word for the function where terms are written as words. -/
def word : UnaryFunction → String
  | strLen => "str_len"
  | strToRe => "str_to_re"
  | reStar => "re_star"
  | rePlus => "re_plus"
  | reOpt => "re_opt"
  | other => other.name

/-- The function that a word stands for. -/
def ofWord? (word : String) : Option UnaryFunction :=
  all.find? (fun function => function.word == word)

end UnaryFunction

/-- The built-in functions of two arguments. -/
inductive BinaryFunction where
  | and
  | or
  | implies
  | equal
  | distinct
  | bvAdd
  | bvSub
  | bvMul
  | bvUdiv
  | bvSdiv
  | bvUrem
  | bvSrem
  | bvAnd
  | bvOr
  | bvXor
  | bvShl
  | bvLshr
  | bvAshr
  | bvUlt
  | bvUle
  | bvUgt
  | bvUge
  | bvSlt
  | bvSle
  | bvSgt
  | bvSge
  | intAdd
  | intLe
  | intLt
  | intGe
  | intGt
  | strConcat
  | strContains
  | strPrefixOf
  | strSuffixOf
  | strInRe
  | reRange
  | reUnion
  | reConcat
  deriving DecidableEq, Repr

namespace BinaryFunction

/-- The name of the function. -/
def name : BinaryFunction → String
  | and => "and"
  | or => "or"
  | implies => "=>"
  | equal => "="
  | distinct => "distinct"
  | bvAdd => "bvadd"
  | bvSub => "bvsub"
  | bvMul => "bvmul"
  | bvUdiv => "bvudiv"
  | bvSdiv => "bvsdiv"
  | bvUrem => "bvurem"
  | bvSrem => "bvsrem"
  | bvAnd => "bvand"
  | bvOr => "bvor"
  | bvXor => "bvxor"
  | bvShl => "bvshl"
  | bvLshr => "bvlshr"
  | bvAshr => "bvashr"
  | bvUlt => "bvult"
  | bvUle => "bvule"
  | bvUgt => "bvugt"
  | bvUge => "bvuge"
  | bvSlt => "bvslt"
  | bvSle => "bvsle"
  | bvSgt => "bvsgt"
  | bvSge => "bvsge"
  | intAdd => "+"
  | intLe => "<="
  | intLt => "<"
  | intGe => ">="
  | intGt => ">"
  | strConcat => "str.++"
  | strContains => "str.contains"
  | strPrefixOf => "str.prefixof"
  | strSuffixOf => "str.suffixof"
  | strInRe => "str.in_re"
  | reRange => "re.range"
  | reUnion => "re.union"
  | reConcat => "re.++"

/-- The sort of the result, given the sort of the first argument. -/
def result (function : BinaryFunction) (first : SmtSort) : SmtSort :=
  match function with
  | bvAdd | bvSub | bvMul | bvUdiv | bvSdiv | bvUrem | bvSrem | bvAnd | bvOr
  | bvXor | bvShl | bvLshr | bvAshr => first
  | intAdd => .int
  | strConcat => .string
  | reRange | reUnion | reConcat => .regLan
  | _ => .bool

/-- All functions of two arguments, in their fixed order. -/
def all : List BinaryFunction :=
  [.and, .or, .implies, .equal, .distinct, .bvAdd, .bvSub, .bvMul, .bvUdiv,
    .bvSdiv, .bvUrem, .bvSrem, .bvAnd, .bvOr, .bvXor, .bvShl, .bvLshr, .bvAshr,
    .bvUlt, .bvUle, .bvUgt, .bvUge, .bvSlt, .bvSle, .bvSgt, .bvSge, .intAdd,
    .intLe, .intLt, .intGe, .intGt, .strConcat, .strContains, .strPrefixOf,
    .strSuffixOf, .strInRe, .reRange, .reUnion, .reConcat]

/-- The word for the function where terms are written as words. -/
def word : BinaryFunction → String
  | implies => "implies"
  | equal => "eq"
  | intAdd => "int_add"
  | intLe => "int_le"
  | intLt => "int_lt"
  | intGe => "int_ge"
  | intGt => "int_gt"
  | strConcat => "str_concat"
  | strContains => "str_contains"
  | strPrefixOf => "str_prefix_of"
  | strSuffixOf => "str_suffix_of"
  | strInRe => "str_in_re"
  | reRange => "re_range"
  | reUnion => "re_union"
  | reConcat => "re_concat"
  | other => other.name

/-- The function that a word stands for. -/
def ofWord? (word : String) : Option BinaryFunction :=
  all.find? (fun function => function.word == word)

end BinaryFunction

end FlowWitness.Smt
