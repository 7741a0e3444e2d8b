import FlowWitness.Proofs.Exploration.EncodingMeaning

/-!
# Typing

The typing rules of expressions, and encoding against them.  A variable or a
constant has the sort of its type, if the type has one; an operator takes
operands of one sort, and which sorts it takes and gives is a matter of the
operator alone.

Encoding knows no rules.  It looks at the sorts of the terms that it has built
for the operands, and never at the types that the operands are declared or
inferred with; inference in turn looks at no term, and at no right operand.
Yet an expression is encoded exactly if the rules give it a sort, and then
its term, its inferred type and the rules agree on the sort.
-/

namespace FlowWitness.Program

open FlowWitness.Smt

/-! ## Typing rules -/

/-- The sort of the values of a type. -/
inductive DataType.HasSort : DataType → SmtSort → Prop where
  | boolean : HasSort .boolean .bool
  | integer (signed : Bool) {bits : Nat}
      (positive : 1 ≤ bits) (narrow : bits ≤ 64) :
      HasSort (.integer signed bits) (.bitVec bits)

/-- The operator takes an operand of the first sort, and gives the second. -/
inductive UnaryOperator.Gives : UnaryOperator → SmtSort → SmtSort → Prop where
  | not : Gives .not .bool .bool
  | negate (width : Nat) : Gives .negate (.bitVec width) (.bitVec width)
  | complementOfTruth : Gives .complement .bool .bool
  | complementOfWord (width : Nat) :
      Gives .complement (.bitVec width) (.bitVec width)

/-- The operator takes two operands of the first sort, and gives the second. -/
inductive BinaryOperator.Gives : BinaryOperator → SmtSort → SmtSort → Prop where
  | comparison {operator : BinaryOperator}
      (named : operator ∈ [equal, notEqual]) (sort : SmtSort) :
      Gives operator sort .bool
  | connective {operator : BinaryOperator} (named : operator ∈ [and, or]) :
      Gives operator .bool .bool
  | bitwiseOnTruths {operator : BinaryOperator}
      (named : operator ∈ [bitAnd, bitOr, bitXor]) :
      Gives operator .bool .bool
  | bitwiseOnWords {operator : BinaryOperator}
      (named : operator ∈ [bitAnd, bitOr, bitXor]) (width : Nat) :
      Gives operator (.bitVec width) (.bitVec width)
  | arithmetic {operator : BinaryOperator}
      (named : operator ∈ [add, subtract, multiply, divide, remainder])
      (width : Nat) :
      Gives operator (.bitVec width) (.bitVec width)
  | shift {operator : BinaryOperator}
      (named : operator ∈ [shiftLeft, shiftRight]) (width : Nat) :
      Gives operator (.bitVec width) (.bitVec width)
  | ordering {operator : BinaryOperator}
      (named : operator ∈ [less, lessOrEqual, greater, greaterOrEqual])
      (width : Nat) :
      Gives operator (.bitVec width) .bool

/-- The sort of an expression by the rules, if it has one. -/
inductive Expression.HasSort : Expression → SmtSort → Prop where
  | var {target : Variable} {sort : SmtSort}
      (typed : target.dataType.HasSort sort) :
      HasSort (.var target) sort
  | constant {value : Constant} {sort : SmtSort}
      (typed : value.dataType.HasSort sort) :
      HasSort (.constant value) sort
  | unary {operator : UnaryOperator} {operand : Expression}
      {argument result : SmtSort} (inner : HasSort operand argument)
      (gives : operator.Gives argument result) :
      HasSort (.unary operator operand) result
  | binary {operator : BinaryOperator} {left right : Expression}
      {argument result : SmtSort} (first : HasSort left argument)
      (second : HasSort right argument)
      (gives : operator.Gives argument result) :
      HasSort (.binary operator left right) result

/-! ## Inferred types -/

/-- Inference gives a truth value, or what the first operand is, as the rule. -/
theorem BinaryOperator.Gives.result_eq
    {operator : BinaryOperator} {argument result : SmtSort}
    (gives : operator.Gives argument result) :
    result = if operator.yieldsBoolean then .bool else argument := by
  cases gives with
  | comparison named | connective named | bitwiseOnTruths named
  | bitwiseOnWords named | arithmetic named | shift named | ordering named =>
      simp only [List.mem_cons, List.not_mem_nil, or_false] at named
      rcases named with rfl | rfl | rfl | rfl | rfl <;> rfl

/-- The inferred type of an expression has the sort of the rules. -/
theorem Expression.HasSort.dataType
    {expression : Expression} {sort : SmtSort}
    (typed : expression.HasSort sort) :
    expression.dataType.HasSort sort := by
  induction typed with
  | var typed => exact typed
  | constant typed => exact typed
  | unary inner gives inferred =>
      cases gives with
      | not => exact .boolean
      | negate | complementOfTruth | complementOfWord => exact inferred
  | @binary operator left right argument result _ _ gives inferred _ =>
      rw [gives.result_eq, Expression.dataType]
      cases operator.yieldsBoolean with
      | true => exact .boolean
      | false => exact inferred

end FlowWitness.Program

namespace FlowWitness.Exploration

open FlowWitness.Program
open FlowWitness.Smt

/-! ## Encoding by the rules -/

theorem sortOf_eq_ok_iff {dataType : DataType} {sort : SmtSort} :
    sortOf dataType = .ok sort ↔ dataType.HasSort sort := by
  constructor
  · intro found
    rcases sortOf_eq_ok found with
      ⟨rfl, rfl⟩ | ⟨signed, bits, rfl, rfl, positive, narrow⟩
    · exact .boolean
    · exact .integer signed positive narrow
  · rintro (_ | ⟨signed, positive, narrow⟩)
    · rfl
    · rw [sortOf, if_pos ⟨positive, narrow⟩]

theorem exists_encodeConstant_iff {value : Constant} {sort : SmtSort} :
    (∃ term, encodeConstant value = .ok term ∧ term.sort = sort) ↔
      value.dataType.HasSort sort := by
  rw [← sortOf_eq_ok_iff]
  cases value with
  | bool truth => simp [encodeConstant, Constant.dataType, sortOf, Term.sort]
  | signed number bits | unsigned number bits =>
      by_cases supported : 1 ≤ bits ∧ bits ≤ maxIntegerBits
      · simp [encodeConstant, Constant.dataType, sortOf, supported,
          Term.bitVecLiteral, Term.sort]
      · simp [encodeConstant, Constant.dataType, sortOf, supported]

/-- A unary operator has a function at the sorts that it takes. -/
theorem exists_unaryFunction_iff
    {operator : UnaryOperator} {argument result : SmtSort} :
    (∃ function, unaryFunction? operator argument = some function ∧
        function.result argument = result) ↔
      operator.Gives argument result := by
  constructor
  · rintro ⟨function, chosen, rfl⟩
    cases operator <;> cases argument <;>
      simp only [unaryFunction?, Option.some.injEq, reduceCtorEq] at chosen <;>
      subst function <;> constructor
  · intro gives
    cases gives with
    | not | negate | complementOfTruth | complementOfWord =>
        exact ⟨_, rfl, rfl⟩

theorem exists_encodeUnary_iff
    {whole : Expression} {operator : UnaryOperator} {operand : Term}
    {result : SmtSort} :
    (∃ term, encodeUnary whole operator operand = .ok term ∧
        term.sort = result) ↔
      operator.Gives operand.sort result := by
  rw [← exists_unaryFunction_iff, encodeUnary]
  cases unaryFunction? operator operand.sort with
  | none => simp
  | some function => simp [Term.applyUnary, Term.sort]

theorem gives_of_booleanFunction
    {operator : BinaryOperator} {function : BinaryFunction}
    (chosen : booleanFunction? operator = some function) :
    operator.Gives .bool (function.result .bool) := by
  cases operator with
  | and | or =>
      cases chosen
      exact .connective (by simp)
  | bitAnd | bitOr | bitXor =>
      cases chosen
      exact .bitwiseOnTruths (by simp)
  | _ => cases chosen

theorem gives_of_bitVecFunction
    {signed : Bool} {operator : BinaryOperator} {function : BinaryFunction}
    (chosen : bitVecFunction? signed operator = some function) (width : Nat) :
    operator.Gives (.bitVec width) (function.result (.bitVec width)) := by
  cases operator with
  | bitAnd | bitOr | bitXor =>
      cases chosen
      exact .bitwiseOnWords (by simp) width
  | add | subtract | multiply | divide | remainder =>
      cases signed <;> cases chosen <;> exact .arithmetic (by simp) width
  | shiftLeft | shiftRight =>
      cases signed <;> cases chosen <;> exact .shift (by simp) width
  | less | lessOrEqual | greater | greaterOrEqual =>
      cases signed <;> cases chosen <;> exact .ordering (by simp) width
  | _ => cases chosen

/-- Apart from the comparisons, so has a binary operator. -/
theorem exists_binaryFunction_iff
    {operator : BinaryOperator} (notEqual : operator ≠ .equal)
    (notUnequal : operator ≠ .notEqual)
    {signed : Bool} {argument result : SmtSort} :
    (∃ function, binaryFunction? signed operator argument = some function ∧
        function.result argument = result) ↔
      operator.Gives argument result := by
  constructor
  · rintro ⟨function, chosen, rfl⟩
    cases argument with
    | bool => exact gives_of_booleanFunction chosen
    | bitVec width => exact gives_of_bitVecFunction chosen width
    | int | string | regLan => cases chosen
  · intro gives
    cases gives with
    | comparison named => simp [notEqual, notUnequal] at named
    | connective named | bitwiseOnTruths named | bitwiseOnWords named
    | arithmetic named | shift named | ordering named =>
        simp only [List.mem_cons, List.not_mem_nil, or_false] at named
        rcases named with rfl | rfl | rfl | rfl | rfl <;>
          cases signed <;> exact ⟨_, rfl, rfl⟩

/-- A comparison takes any sort, and gives a truth value. -/
theorem gives_comparison_iff
    {operator : BinaryOperator} (named : operator ∈ [.equal, .notEqual])
    {argument result : SmtSort} :
    operator.Gives argument result ↔ result = .bool := by
  constructor
  · intro gives
    simp only [List.mem_cons, List.not_mem_nil, or_false] at named
    rw [gives.result_eq]
    rcases named with rfl | rfl <;> rfl
  · rintro rfl
    exact .comparison named argument

theorem exists_encodeBinary_iff
    {whole : Expression} {operator : BinaryOperator} {signed : Bool}
    {left right : Term} {result : SmtSort} :
    (∃ term, encodeBinary whole operator signed left right = .ok term ∧
        term.sort = result) ↔
      left.sort = right.sort ∧ operator.Gives left.sort result := by
  by_cases same : left.sort = right.sort
  · rw [encodeBinary.eq_def, if_pos same, and_iff_right same]
    split
    · rw [gives_comparison_iff (by simp)]
      simp [Term.equation, Term.applyBinary, Term.sort,
        BinaryFunction.result, eq_comm]
    · rw [gives_comparison_iff (by simp)]
      simp [Term.negation, Term.applyUnary, Term.sort, UnaryFunction.result,
        eq_comm]
    · next notEqual notUnequal =>
        rw [← exists_binaryFunction_iff notEqual notUnequal]
        cases binaryFunction? signed operator left.sort with
        | none => simp
        | some function => simp [Term.applyBinary, Term.sort]
  · simp [encodeBinary.eq_def, same]

/-! ## Expressions -/

/-- What is encoded has the sort of its term by the rules. -/
theorem hasSort_of_encodeExpression
    {versions : VersionMap} {expression : Expression} {term : Term}
    (encoded : encodeExpression versions expression = .ok term) :
    expression.HasSort term.sort := by
  induction expression generalizing term with
  | var target =>
      rw [encodeExpression] at encoded
      cases found : keyOf target with
      | error violation => simp [found] at encoded
      | ok key =>
          simp only [found, Except.ok.injEq] at encoded
          subst term
          exact .var (sortOf_eq_ok_iff.mp (keyOf_eq_ok found).2)
  | constant value =>
      exact .constant (exists_encodeConstant_iff.mp ⟨term, encoded, rfl⟩)
  | unary operator operand induction =>
      rw [encodeExpression] at encoded
      cases inner : encodeExpression versions operand with
      | error violation => simp [inner] at encoded
      | ok argument =>
          simp only [inner] at encoded
          exact .unary (induction inner)
            (exists_encodeUnary_iff.mp ⟨term, encoded, rfl⟩)
  | binary operator left right onLeft onRight =>
      rw [encodeExpression] at encoded
      cases first : encodeExpression versions left with
      | error violation => simp [first] at encoded
      | ok leftTerm =>
          cases second : encodeExpression versions right with
          | error violation => simp [first, second] at encoded
          | ok rightTerm =>
              simp only [first, second] at encoded
              rcases exists_encodeBinary_iff.mp ⟨term, encoded, rfl⟩ with
                ⟨same, gives⟩
              exact .binary (onLeft first) (same ▸ onRight second) gives

/-- What has a sort by the rules is encoded, over any versions. -/
theorem exists_encodeExpression
    {expression : Expression} {sort : SmtSort}
    (typed : expression.HasSort sort) (versions : VersionMap) :
    ∃ term, encodeExpression versions expression = .ok term ∧
      term.sort = sort := by
  induction typed with
  | @var target sort typed =>
      refine ⟨SymbolKey.versioned ⟨target.stem, sort⟩
        (versions.get ⟨target.stem, sort⟩), ?_, rfl⟩
      rw [encodeExpression, keyOf, sortOf_eq_ok_iff.mpr typed]
  | constant typed => exact exists_encodeConstant_iff.mpr typed
  | unary inner gives induction =>
      rcases induction with ⟨argument, encoded, rfl⟩
      rw [encodeExpression, encoded]
      exact exists_encodeUnary_iff.mpr gives
  | binary first second gives onLeft onRight =>
      rcases onLeft with ⟨leftTerm, leftEncoded, rfl⟩
      rcases onRight with ⟨rightTerm, rightEncoded, same⟩
      rw [encodeExpression, leftEncoded, rightEncoded]
      exact exists_encodeBinary_iff.mpr ⟨same.symm, gives⟩

theorem map_sort_encodeExpression_iff
    {versions : VersionMap} {expression : Expression} {sort : SmtSort} :
    (encodeExpression versions expression).toOption.map Term.sort = some sort ↔
      expression.HasSort sort := by
  constructor
  · intro sorted
    cases encoded : encodeExpression versions expression with
    | error violation => simp [encoded, Except.toOption] at sorted
    | ok term =>
        simp only [encoded, Except.toOption, Option.map_some,
          Option.some.injEq] at sorted
        exact sorted ▸ hasSort_of_encodeExpression encoded
  · intro typed
    rcases exists_encodeExpression typed versions with ⟨term, encoded, rfl⟩
    rw [encoded]
    rfl

/--
An expression is encoded exactly if it has a sort by the typing rules; then
the term has this one sort, which is also that of the inferred type.  The
versions have no say in it.
-/
theorem encoding_follows_typing (expression : Expression)
    (versions : VersionMap) :
    ((∃ term, encodeExpression versions expression = .ok term) ↔
        ∃ sort, expression.HasSort sort) ∧
      (∀ term, encodeExpression versions expression = .ok term →
        (∀ sort, expression.HasSort sort ↔ term.sort = sort) ∧
          sortOf expression.dataType = .ok term.sort) ∧
      (∀ others : VersionMap,
        (encodeExpression versions expression).toOption.map Term.sort =
          (encodeExpression others expression).toOption.map Term.sort) := by
  refine ⟨⟨?_, ?_⟩, ?_, ?_⟩
  · rintro ⟨term, encoded⟩
    exact ⟨term.sort, hasSort_of_encodeExpression encoded⟩
  · rintro ⟨sort, typed⟩
    rcases exists_encodeExpression typed versions with ⟨term, encoded, _⟩
    exact ⟨term, encoded⟩
  · intro term encoded
    have typed := hasSort_of_encodeExpression encoded
    refine ⟨fun sort => ?_, sortOf_eq_ok_iff.mpr typed.dataType⟩
    rw [← map_sort_encodeExpression_iff, encoded]
    exact Option.some_inj
  · intro others
    apply Option.ext
    intro sort
    rw [map_sort_encodeExpression_iff, map_sort_encodeExpression_iff]

/-- A word of eight bits without a sign. -/
def level : Variable := ⟨0, "level", .integer false 8⟩

/-- A word of the same width with a sign. -/
def offset : Variable := ⟨1, "offset", .integer true 8⟩

/-- Operands of two types but one sort: `~((level + offset) <= offset)`. -/
def aboveOffset : Expression :=
  .unary .complement
    (.binary .lessOrEqual (.binary .add (.var level) (.var offset))
      (.var offset))

/-- It is a truth value; its sum, which is a word, is none to be negated. -/
theorem aboveOffset_encoding_follows_typing :
    (∃ term, encodeExpression .empty aboveOffset = .ok term ∧
      term.sort = .bool ∧ aboveOffset.HasSort .bool ∧
      sortOf aboveOffset.dataType = .ok .bool) ∧
    ¬ ∃ sort, (Expression.unary .not
      (.binary .add (.var level) (.var offset))).HasSort sort := by
  have encoded : (encodeExpression .empty aboveOffset).toOption.isSome := by
    decide
  constructor
  · cases found : encodeExpression .empty aboveOffset with
    | error violation => simp [found, Except.toOption] at encoded
    | ok term =>
        rcases (encoding_follows_typing aboveOffset .empty).2.1 term found with
          ⟨typed, inferred⟩
        have sorted : term.sort = .bool := by
          have boolean : sortOf aboveOffset.dataType = .ok .bool := rfl
          rw [boolean, Except.ok.injEq] at inferred
          exact inferred.symm
        exact ⟨term, rfl, sorted, (typed .bool).mpr sorted,
          sorted ▸ inferred⟩
  · rw [← (encoding_follows_typing _ .empty).1]
    rintro ⟨term, accepted⟩
    have refused : (encodeExpression .empty (.unary .not
        (.binary .add (.var level) (.var offset)))).toOption = none := by
      decide
    simp [accepted, Except.toOption] at refused

end FlowWitness.Exploration
