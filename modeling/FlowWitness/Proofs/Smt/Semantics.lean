import FlowWitness.Proofs.Value
import FlowWitness.Smt.Term

/-!
# The meaning of terms

The terms over truth values and bit-vectors, with their values by the
standard's definitions of the core and fixed-width bit-vector theories.  A
valuation gives a value to every declared constant, of each sort, so it is
well sorted by construction.  A function is recognised by its name; a term
outside the two theories, or with arguments that its function does not take,
has no value.
-/

namespace FlowWitness.Smt

/-! ## Valuations -/

/-- A value of each sort for every declared constant. -/
structure Valuation where
  truth : String → Bool
  word : String → (width : Nat) → BitVec width

/-- The value of a declared constant. -/
def Valuation.read (valuation : Valuation) (name : String) :
    SmtSort → Option Value
  | .bool => some (.bool (valuation.truth name))
  | .bitVec width => some (.word width (valuation.word name width))
  | _ => none

namespace Valuation

/-- The valuation with another value for one constant of the value's sort. -/
def withValue (valuation : Valuation) (name : String) : Value → Valuation
  | .bool value =>
    { valuation with
      truth := fun other =>
        if other = name then value else valuation.truth other }
  | .word width bits =>
    { valuation with
      word := fun other otherWidth =>
        if same : width = otherWidth ∧ other = name then bits.cast same.1
        else valuation.word other otherWidth }

@[simp]
theorem read_withValue_self
    (valuation : Valuation) (name : String) (value : Value) :
    (valuation.withValue name value).read name value.sort = some value := by
  cases value with
  | bool truth => simp [withValue, Value.sort, read]
  | word width bits => simp [withValue, Value.sort, read]

theorem read_withValue_of_ne
    (valuation : Valuation) {name other : String} {sort : SmtSort}
    (value : Value) (different : other ≠ name ∨ sort ≠ value.sort) :
    (valuation.withValue name value).read other sort =
      valuation.read other sort := by
  cases value with
  | bool truth =>
      cases sort with
      | bool =>
          have named : other ≠ name := by simpa [Value.sort] using different
          simp [withValue, read, named]
      | _ => rfl
  | word width bits =>
      cases sort with
      | bitVec otherWidth =>
          have apart : ¬ (width = otherWidth ∧ other = name) := by
            rintro ⟨rfl, rfl⟩
            simp [Value.sort] at different
          simp [withValue, read, apart]
      | _ => rfl

theorem truth_withValue_of_ne
    (valuation : Valuation) {name other : String} (value : Value)
    (different : other ≠ name) :
    (valuation.withValue name value).truth other = valuation.truth other := by
  cases value <;> simp [withValue, different]

end Valuation

/-! ## Functions -/

namespace UnaryFunction

/-- The function with the given name. -/
def ofName? (name : String) : Option UnaryFunction :=
  all.find? (fun function => function.name == name)

@[simp]
theorem ofName?_name (function : UnaryFunction) :
    ofName? function.name = some function := by
  cases function <;> rfl

/-- What the function gives on a value. -/
def denote : UnaryFunction → Value → Option Value
  | .not, .bool value => some (.bool (!value))
  | .bvNeg, .word width bits => some (.word width (-bits))
  | .bvNot, .word width bits => some (.word width (~~~bits))
  | _, _ => none

/-- The sorts of argument that the function takes. -/
def accepts : UnaryFunction → SmtSort → Bool
  | .not, .bool => true
  | .bvNeg, .bitVec _ => true
  | .bvNot, .bitVec _ => true
  | _, _ => false

end UnaryFunction

namespace BinaryFunction

/-- The function with the given name. -/
def ofName? (name : String) : Option BinaryFunction :=
  all.find? (fun function => function.name == name)

@[simp]
theorem ofName?_name (function : BinaryFunction) :
    ofName? function.name = some function := by
  cases function <;> rfl

/-- A truth value computed from two truth values. -/
def logical (compute : Bool → Bool → Bool) : Value → Value → Option Value :=
  Value.onTruths (fun first second => some (.bool (compute first second)))

/-- A word computed from two words of its width. -/
def arithmetic
    (compute : (width : Nat) → BitVec width → BitVec width → BitVec width) :
    Value → Value → Option Value :=
  Value.onWords (fun width first second =>
    some (.word width (compute width first second)))

/-- A truth value computed from two words of one width. -/
def comparison
    (compute : (width : Nat) → BitVec width → BitVec width → Bool) :
    Value → Value → Option Value :=
  Value.onWords (fun width first second =>
    some (.bool (compute width first second)))

@[simp]
theorem arithmetic_word
    (compute : (width : Nat) → BitVec width → BitVec width → BitVec width)
    (width : Nat) (first second : BitVec width) :
    arithmetic compute (.word width first) (.word width second) =
      some (.word width (compute width first second)) := by
  simp [arithmetic]

@[simp]
theorem comparison_word
    (compute : (width : Nat) → BitVec width → BitVec width → Bool)
    (width : Nat) (first second : BitVec width) :
    comparison compute (.word width first) (.word width second) =
      some (.bool (compute width first second)) := by
  simp [comparison]

/-- Are two values of one sort the same? -/
def sameness (whenSame : Bool) : Value → Value → Option Value :=
  Value.onPairs
    (fun first second => some (.bool ((first == second) == whenSame)))
    (fun _ first second => some (.bool ((first == second) == whenSame)))

/-- What the function gives on two values. -/
def denote : BinaryFunction → Value → Value → Option Value
  | .and => logical (fun first second => first && second)
  | .or => logical (fun first second => first || second)
  | .implies => logical (fun first second => !first || second)
  | .equal => sameness true
  | .distinct => sameness false
  | .bvAdd => arithmetic (fun _ first second => first + second)
  | .bvSub => arithmetic (fun _ first second => first - second)
  | .bvMul => arithmetic (fun _ first second => first * second)
  | .bvUdiv => arithmetic (fun _ first second => first.smtUDiv second)
  | .bvSdiv => arithmetic (fun _ first second => first.smtSDiv second)
  | .bvUrem => arithmetic (fun _ first second => first.umod second)
  | .bvSrem => arithmetic (fun _ first second => first.srem second)
  | .bvAnd => arithmetic (fun _ first second => first &&& second)
  | .bvOr => arithmetic (fun _ first second => first ||| second)
  | .bvXor => arithmetic (fun _ first second => first ^^^ second)
  | .bvShl => arithmetic (fun _ first second => first <<< second)
  | .bvLshr => arithmetic (fun _ first second => first >>> second)
  | .bvAshr => arithmetic (fun _ first second => first.sshiftRight' second)
  | .bvUlt => comparison (fun _ first second => first.ult second)
  | .bvUle => comparison (fun _ first second => first.ule second)
  | .bvUgt => comparison (fun _ first second => second.ult first)
  | .bvUge => comparison (fun _ first second => second.ule first)
  | .bvSlt => comparison (fun _ first second => first.slt second)
  | .bvSle => comparison (fun _ first second => first.sle second)
  | .bvSgt => comparison (fun _ first second => second.slt first)
  | .bvSge => comparison (fun _ first second => second.sle first)
  | _ => fun _ _ => none

/--
The sorts of arguments that the function takes: truth values, two values of
one sort, or two bit-vectors of one width.
-/
def accepts (function : BinaryFunction) (first second : SmtSort) : Bool :=
  match function with
  | .and | .or | .implies => first == .bool && second == .bool
  | .equal | .distinct => first == second
  | .bvAdd | .bvSub | .bvMul | .bvUdiv | .bvSdiv | .bvUrem | .bvSrem | .bvAnd
  | .bvOr | .bvXor | .bvShl | .bvLshr | .bvAshr | .bvUlt | .bvUle | .bvUgt
  | .bvUge | .bvSlt | .bvSle | .bvSgt | .bvSge =>
    first.width?.isSome && first == second
  | _ => false

end BinaryFunction

/-! ## Values of terms -/

namespace Term

/-- The value of a term, if it has one. -/
def eval (valuation : Valuation) : Term → Option Value
  | .bool value => some (.bool value)
  | .bitVec value width => some (.word width (BitVec.ofNat width value))
  | .nullary symbol =>
    if symbol.isBuiltin then none
    else valuation.read symbol.name symbol.result
  | .unary symbol argument =>
    if symbol.isBuiltin then
      (UnaryFunction.ofName? symbol.name).bind (fun function =>
        (argument.eval valuation).bind function.denote)
    else none
  | .binary symbol first second =>
    if symbol.isBuiltin then
      (BinaryFunction.ofName? symbol.name).bind (fun function =>
        (first.eval valuation).bind (fun left =>
          (second.eval valuation).bind (function.denote left)))
    else none
  | .ternary _ _ _ _ => none

@[simp]
theorem eval_bool (valuation : Valuation) (value : Bool) :
    (Term.bool value).eval valuation = some (.bool value) :=
  rfl

@[simp]
theorem eval_constant
    (valuation : Valuation) (name : String) (sort : SmtSort) :
    (Term.constant name sort).eval valuation = valuation.read name sort :=
  rfl

@[simp]
theorem eval_applyUnary
    (valuation : Valuation) (function : UnaryFunction) (argument : Term) :
    (Term.applyUnary function argument).eval valuation =
      (argument.eval valuation).bind function.denote := by
  simp [applyUnary, eval, FunctionSymbol.isBuiltin]

@[simp]
theorem eval_applyBinary
    (valuation : Valuation) (function : BinaryFunction)
    (first second : Term) :
    (Term.applyBinary function first second).eval valuation =
      (first.eval valuation).bind (fun left =>
        (second.eval valuation).bind (function.denote left)) := by
  simp [applyBinary, eval, FunctionSymbol.isBuiltin]

end Term

/-! ## Satisfaction -/

namespace Valuation

/-- The condition holds under the valuation. -/
def Satisfies (valuation : Valuation) (condition : Term) : Prop :=
  condition.eval valuation = some (.bool true)

instance (valuation : Valuation) (condition : Term) :
    Decidable (valuation.Satisfies condition) :=
  inferInstanceAs (Decidable (condition.eval valuation = some (.bool true)))

/-- All conditions hold under the valuation. -/
def SatisfiesAll (valuation : Valuation) (conditions : List Term) : Prop :=
  ∀ condition ∈ conditions, valuation.Satisfies condition

end Valuation

/-- Some valuation makes all conditions true. -/
def Satisfiable (conditions : List Term) : Prop :=
  ∃ valuation : Valuation, valuation.SatisfiesAll conditions

end FlowWitness.Smt
