import FlowWitness.Exploration.Encoding
import FlowWitness.Proofs.Program.BitPatterns
import FlowWitness.Proofs.Program.WordArithmetic
import FlowWitness.Proofs.Smt.WellSorted

/-!
# Encoding preserves meaning

A valuation of the versioned symbols and a version map together give every
variable a value: that of the current version of its symbol.  The term that
encodes an expression is well sorted, and its value under the valuation is
the value of the expression in that environment, whatever the operators, the
widths and the signs.
-/

namespace FlowWitness.Exploration

open FlowWitness.Program
open FlowWitness.Smt

/-! ## The environment of a valuation -/

/-- The name of the constant that stands for a version of a symbol. -/
def SymbolKey.versionName (key : SymbolKey) (version : Nat) : String :=
  key.name ++ "@" ++ toString version

/-- The name of the current version of a variable's symbol at a sort. -/
def currentName (versions : VersionMap) (target : Variable) (sort : SmtSort) :
    String :=
  let key : SymbolKey := ⟨target.stem, sort⟩
  key.versionName (versions.get key)

/-- Every variable with the value of the current version of its symbol. -/
def environmentOf (valuation : Valuation) (versions : VersionMap) :
    Environment where
  truth target := valuation.truth (currentName versions target .bool)
  word target width :=
    valuation.word (currentName versions target (.bitVec width)) width

theorem SymbolKey.eval_versioned
    (key : SymbolKey) (version : Nat) (valuation : Valuation) :
    (key.versioned version).eval valuation =
      valuation.read (key.versionName version) key.sort :=
  rfl

/-- A key has the stem of its variable and a sort with values. -/
theorem keyOf_eq_ok
    {target : Variable} {key : SymbolKey} (found : keyOf target = .ok key) :
    key.name = target.stem ∧ sortOf target.dataType = .ok key.sort := by
  unfold keyOf at found
  split at found
  · next sort sorted =>
      simp only [Except.ok.injEq] at found
      subst key
      exact ⟨rfl, sorted⟩
  · simp at found

theorem sortOf_eq_ok
    {dataType : DataType} {sort : SmtSort} (found : sortOf dataType = .ok sort) :
    (dataType = .boolean ∧ sort = .bool) ∨
      ∃ signed bits, dataType = .integer signed bits ∧ sort = .bitVec bits ∧
        1 ≤ bits ∧ bits ≤ maxIntegerBits := by
  cases dataType with
  | boolean =>
      simp only [sortOf, Except.ok.injEq] at found
      exact Or.inl ⟨rfl, found.symm⟩
  | integer signed bits =>
      simp only [sortOf] at found
      split at found
      · next supported =>
          simp only [Except.ok.injEq] at found
          exact Or.inr ⟨signed, bits, rfl, found.symm, supported⟩
      · simp at found
  | float exponentBits mantissaBits => simp [sortOf] at found

theorem isGround_of_sortOf
    {dataType : DataType} {sort : SmtSort} (found : sortOf dataType = .ok sort) :
    sort.isGround = true := by
  rcases sortOf_eq_ok found with ⟨_, rfl⟩ | ⟨_, bits, _, rfl, positive, _⟩
  · rfl
  · simpa [SmtSort.isGround] using Nat.lt_of_succ_le positive

theorem wellSorted_versioned
    {target : Variable} {key : SymbolKey} (found : keyOf target = .ok key)
    (version : Nat) :
    (key.versioned version).WellSorted :=
  .constant _ (isGround_of_sortOf (keyOf_eq_ok found).2)

/-- A variable reads as the current version of its symbol. -/
theorem read_environmentOf
    {target : Variable} {key : SymbolKey} (found : keyOf target = .ok key)
    (valuation : Valuation) (versions : VersionMap) :
    (environmentOf valuation versions).read target =
      (key.versioned (versions.get key)).eval valuation := by
  rcases keyOf_eq_ok found with ⟨named, sorted⟩
  rcases key with ⟨name, sort⟩
  simp only at named sorted
  subst name
  rcases sortOf_eq_ok sorted with
    ⟨shape, rfl⟩ | ⟨signed, bits, shape, rfl, _, _⟩
  · simp [Environment.read, shape, environmentOf, currentName,
      SymbolKey.eval_versioned, Valuation.read]
  · simp [Environment.read, shape, environmentOf, currentName,
      SymbolKey.eval_versioned, Valuation.read]

/-! ## Constants -/

theorem eval_bitVecLiteral
    {bits : Nat} (supported : bits ≤ maxIntegerBits) (value : Nat)
    (valuation : Valuation) :
    (Term.bitVecLiteral value bits).eval valuation =
      some (.word bits (BitVec.ofNat bits value)) := by
  simp only [Term.bitVecLiteral, Term.eval, patternCount_of_le supported,
    Option.some.injEq, Value.word.injEq, heq_eq_eq, true_and]
  apply BitVec.eq_of_toNat_eq
  simp [wordCount]

theorem wellSorted_bitVecLiteral
    {bits : Nat} (positive : 1 ≤ bits) (supported : bits ≤ maxIntegerBits)
    (value : Nat) :
    (Term.bitVecLiteral value bits).WellSorted := by
  apply Term.WellSorted.bitVec positive
  rw [patternCount_of_le supported]
  exact Nat.mod_lt value (Nat.two_pow_pos bits)

/-- The pattern of a supported constant is that of its value. -/
theorem value_eq_word
    {constant : Constant} {signed : Bool} {bits : Nat}
    (typed : constant.dataType = .integer signed bits)
    (supported : bits ≤ maxIntegerBits) :
    constant.value = .word bits (BitVec.ofNat bits constant.toBits) := by
  have count := patternCount_of_le supported
  cases constant with
  | bool value => simp [Constant.dataType] at typed
  | signed value declared =>
      simp only [Constant.dataType, DataType.integer.injEq] at typed
      rcases typed with ⟨-, rfl⟩
      simp only [Constant.value, Constant.toBits, count, wordCount, Nat.pow_eq,
        Value.word.injEq, heq_eq_eq, true_and]
      apply BitVec.eq_of_toNat_eq
      rw [BitVec.toNat_ofInt, BitVec.toNat_ofNat]
      have below : (value % ((2 ^ declared : Nat) : Int)).toNat < 2 ^ declared := by
        have positive : (0 : Int) < ((2 ^ declared : Nat) : Int) := by
          exact_mod_cast Nat.two_pow_pos declared
        have upper := Int.emod_lt_of_pos value positive
        omega
      rw [Nat.mod_eq_of_lt below]
  | unsigned value declared =>
      simp only [Constant.dataType, DataType.integer.injEq] at typed
      rcases typed with ⟨-, rfl⟩
      simp only [Constant.value, Constant.toBits, count, wordCount, Nat.pow_eq,
        Value.word.injEq, heq_eq_eq, true_and]
      apply BitVec.eq_of_toNat_eq
      simp

/-- The literal of a constant has the value of the constant. -/
theorem encodeConstant_meaning
    {constant : Constant} {term : Term}
    (encoded : encodeConstant constant = .ok term) (valuation : Valuation) :
    term.WellSorted ∧ term.eval valuation = some constant.value := by
  unfold encodeConstant at encoded
  split at encoded
  · next value =>
      simp only [Except.ok.injEq] at encoded
      subst term
      exact ⟨.bool value, rfl⟩
  · next =>
      split at encoded
      · next bits sorted =>
          simp only [Except.ok.injEq] at encoded
          subst term
          rcases sortOf_eq_ok sorted with ⟨_, impossible⟩ |
            ⟨signed, width, typed, same, positive, supported⟩
          · simp at impossible
          · simp only [SmtSort.bitVec.injEq] at same
            subst width
            rw [value_eq_word typed supported]
            exact ⟨wellSorted_bitVecLiteral positive supported _,
              eval_bitVecLiteral supported _ valuation⟩
      · simp at encoded
      · simp at encoded

/-! ## Operators -/

theorem unaryFunction_meaning
    {operator : UnaryOperator} {sort : SmtSort} {function : UnaryFunction}
    (chosen : unaryFunction? operator sort = some function) :
    function.accepts sort = true ∧
      ∀ value : Value, value.sort = sort →
        function.denote value = operator.apply value := by
  cases operator <;> cases sort <;>
    simp only [unaryFunction?, Option.some.injEq, reduceCtorEq] at chosen <;>
    subst function <;> refine ⟨rfl, ?_⟩ <;> intro value sorted <;>
    cases value <;>
    simp_all [Value.sort, UnaryFunction.denote, UnaryOperator.apply,
      ofInt_neg_toInt]

theorem booleanFunction_meaning
    {operator : BinaryOperator} {function : BinaryFunction}
    (chosen : booleanFunction? operator = some function)
    (first second : Bool) :
    function.accepts .bool .bool = true ∧
      function.denote (.bool first) (.bool second) =
        operator.onTruths first second := by
  cases operator <;>
    simp only [booleanFunction?, Option.some.injEq, reduceCtorEq] at chosen <;>
    subst function <;> cases first <;> cases second <;> exact ⟨rfl, rfl⟩

theorem accepts_of_bitVecFunction
    {signed : Bool} {operator : BinaryOperator} {function : BinaryFunction}
    (chosen : bitVecFunction? signed operator = some function)
    (width : Nat) :
    function.accepts (.bitVec width) (.bitVec width) = true := by
  cases operator <;> cases signed <;>
    simp only [bitVecFunction?, Option.some.injEq, reduceCtorEq, ite_true,
      ite_false, Bool.false_eq_true] at chosen <;>
    subst function <;> simp [BinaryFunction.accepts, SmtSort.width?]

/-- The bit-vector function of an operator is the operator on numbers. -/
theorem bitVecFunction_meaning
    {signed : Bool} {operator : BinaryOperator} {function : BinaryFunction}
    (chosen : bitVecFunction? signed operator = some function)
    (width : Nat) (first second : BitVec width) :
    function.denote (.word width first) (.word width second) =
      operator.onWords signed width first second := by
  cases operator with
  | add =>
      simp only [bitVecFunction?, Option.some.injEq] at chosen
      subst function
      simp [BinaryFunction.denote, BinaryOperator.onWords, ofInt_add_numberOf]
  | subtract =>
      simp only [bitVecFunction?, Option.some.injEq] at chosen
      subst function
      simp [BinaryFunction.denote, BinaryOperator.onWords, ofInt_sub_numberOf]
  | multiply =>
      simp only [bitVecFunction?, Option.some.injEq] at chosen
      subst function
      simp [BinaryFunction.denote, BinaryOperator.onWords, ofInt_mul_numberOf]
  | divide =>
      simp only [bitVecFunction?, Option.some.injEq] at chosen
      subst function
      cases signed
      · simp [BinaryFunction.denote, BinaryOperator.onWords, numberOf,
          ofInt_quotient_toNat]
      · simp [BinaryFunction.denote, BinaryOperator.onWords, numberOf,
          ofInt_quotient_toInt]
  | remainder =>
      simp only [bitVecFunction?, Option.some.injEq] at chosen
      subst function
      cases signed
      · simp only [BinaryFunction.denote, BinaryOperator.onWords, numberOf]
        simp [ofInt_remainder_toNat]
      · simp [BinaryFunction.denote, BinaryOperator.onWords, numberOf,
          ofInt_remainder_toInt]
  | bitAnd | bitOr | bitXor =>
      simp only [bitVecFunction?, Option.some.injEq] at chosen
      subst function
      simp [BinaryFunction.denote, BinaryOperator.onWords]
  | shiftLeft =>
      simp only [bitVecFunction?, Option.some.injEq] at chosen
      subst function
      simp [BinaryFunction.denote, BinaryOperator.onWords, ofInt_shiftedUp]
  | shiftRight =>
      simp only [bitVecFunction?, Option.some.injEq] at chosen
      subst function
      cases signed
      · simp [BinaryFunction.denote, BinaryOperator.onWords, numberOf,
          ofInt_shiftedDown_toNat]
      · simp [BinaryFunction.denote, BinaryOperator.onWords, numberOf,
          ofInt_shiftedDown_toInt]
  | less | lessOrEqual | greater | greaterOrEqual =>
      simp only [bitVecFunction?, Option.some.injEq] at chosen
      subst function
      cases signed <;>
        simp [BinaryFunction.denote, BinaryOperator.onWords, numberOf,
          BitVec.ult, BitVec.ule, BitVec.slt, BitVec.sle]
  | equal | notEqual | and | or => simp [bitVecFunction?] at chosen

/-! ## Expressions -/

/-- A term that means an expression: well sorted, and with its value. -/
structure Means (versions : VersionMap) (term : Term) (expression : Expression) :
    Prop where
  wellSorted : term.WellSorted
  value : ∀ valuation : Valuation,
    term.eval valuation = expression.eval (environmentOf valuation versions)

theorem encodeUnary_means
    {versions : VersionMap} {whole operand : Expression}
    {operator : UnaryOperator} {argument term : Term}
    (means : Means versions argument operand)
    (encoded : encodeUnary whole operator argument = .ok term) :
    Means versions term (.unary operator operand) := by
  unfold encodeUnary at encoded
  split at encoded
  · next function chosen =>
      simp only [Except.ok.injEq] at encoded
      subst term
      rcases unaryFunction_meaning chosen with ⟨accepted, denoted⟩
      refine ⟨.applyUnary means.wellSorted accepted, ?_⟩
      intro valuation
      rcases means.wellSorted.eval_eq_some valuation with
        ⟨value, evaluated, sorted⟩
      rw [Term.eval_applyUnary, Expression.eval, ← means.value, evaluated]
      exact denoted value sorted
  · simp at encoded

/-- A function that agrees with an operator encodes it. -/
theorem applyBinary_means
    {versions : VersionMap} {left right : Expression}
    {operator : BinaryOperator} {function : BinaryFunction}
    {first second : Term}
    (leftMeans : Means versions first left)
    (rightMeans : Means versions second right)
    (accepted : function.accepts first.sort second.sort = true)
    (denoted : ∀ leftValue rightValue : Value,
      leftValue.sort = first.sort → rightValue.sort = second.sort →
        function.denote leftValue rightValue =
          operator.apply left.dataType.isSigned leftValue rightValue) :
    Means versions (.applyBinary function first second)
      (.binary operator left right) := by
  refine ⟨.applyBinary leftMeans.wellSorted rightMeans.wellSorted accepted, ?_⟩
  intro valuation
  rcases leftMeans.wellSorted.eval_eq_some valuation with
    ⟨leftValue, leftEvaluated, leftSorted⟩
  rcases rightMeans.wellSorted.eval_eq_some valuation with
    ⟨rightValue, rightEvaluated, rightSorted⟩
  rw [Term.eval_applyBinary, Expression.eval, ← leftMeans.value,
    ← rightMeans.value, leftEvaluated, rightEvaluated]
  exact denoted leftValue rightValue leftSorted rightSorted

/-- Equality of patterns is equality of the numbers they stand for. -/
theorem sameness_eq_apply
    (signed : Bool) {first second : Value} (same : first.sort = second.sort) :
    BinaryFunction.sameness true first second =
      BinaryOperator.equal.apply signed first second := by
  cases first with
  | bool left =>
      cases second with
      | bool right =>
          simp [BinaryFunction.sameness, BinaryOperator.apply, Value.onPairs,
            BinaryOperator.onTruths]
      | word width bits => simp [Value.sort] at same
  | word width left =>
      cases second with
      | bool right => simp [Value.sort] at same
      | word other right =>
          simp only [Value.sort, SmtSort.bitVec.injEq] at same
          subst other
          simp [BinaryFunction.sameness, BinaryOperator.apply, Value.onPairs,
            BinaryOperator.onWords, numberOf_beq]

/-- Inequality is the negation of equality. -/
theorem apply_notEqual
    (signed : Bool) (first second : Value) :
    BinaryOperator.notEqual.apply signed first second =
      (BinaryOperator.equal.apply signed first second).bind
        UnaryFunction.not.denote := by
  cases first with
  | bool left =>
      cases second with
      | bool right => cases left <;> cases right <;> rfl
      | word width bits => rfl
  | word width left =>
      cases second with
      | bool right => rfl
      | word other right =>
          by_cases same : other = width
          · subst other
            simp [BinaryOperator.apply, Value.onPairs, BinaryOperator.onWords,
              UnaryFunction.denote, bne]
          · simp [BinaryOperator.apply, Value.onPairs, Value.onWords, same]

theorem binaryFunction_meaning
    {signed : Bool} {operator : BinaryOperator} {sort : SmtSort}
    {function : BinaryFunction}
    (chosen : binaryFunction? signed operator sort = some function) :
    function.accepts sort sort = true ∧
      ∀ first second : Value, first.sort = sort → second.sort = sort →
        function.denote first second = operator.apply signed first second := by
  cases sort with
  | bool =>
      refine ⟨(booleanFunction_meaning chosen true true).1, ?_⟩
      intro first second firstSorted secondSorted
      rcases BinaryFunction.truths_of_sort_eq firstSorted secondSorted with
        ⟨left, right, rfl, rfl⟩
      exact (booleanFunction_meaning chosen left right).2
  | bitVec width =>
      refine ⟨accepts_of_bitVecFunction chosen width, ?_⟩
      intro first second firstSorted secondSorted
      rcases BinaryFunction.words_of_sort_eq (by rw [firstSorted]; rfl)
          (firstSorted.trans secondSorted.symm) with
        ⟨other, left, right, rfl, rfl⟩
      rw [bitVecFunction_meaning chosen]
      simp [BinaryOperator.apply, Value.onPairs]
  | int | string | regLan => simp [binaryFunction?] at chosen

theorem encodeBinary_means
    {versions : VersionMap} {whole left right : Expression}
    {operator : BinaryOperator} {first second term : Term}
    (leftMeans : Means versions first left)
    (rightMeans : Means versions second right)
    (encoded : encodeBinary whole operator left.dataType.isSigned first second =
      .ok term) :
    Means versions term (.binary operator left right) := by
  unfold encodeBinary at encoded
  split at encoded
  · next same =>
      have equation : Means versions (.equation first second)
          (.binary .equal left right) := by
        apply applyBinary_means leftMeans rightMeans
        · simp [BinaryFunction.accepts, same]
        · intro leftValue rightValue leftSorted rightSorted
          exact sameness_eq_apply _
            (leftSorted.trans (same.trans rightSorted.symm))
      split at encoded
      · simp only [Except.ok.injEq] at encoded
        subst term
        exact equation
      · simp only [Except.ok.injEq] at encoded
        subst term
        refine ⟨.applyUnary equation.wellSorted rfl, ?_⟩
        intro valuation
        rw [Term.negation, Term.eval_applyUnary, equation.value]
        simp only [Expression.eval, apply_notEqual, Option.bind_assoc]
      · split at encoded
        · next function chosen =>
            simp only [Except.ok.injEq] at encoded
            subst term
            rcases binaryFunction_meaning chosen with ⟨accepted, denoted⟩
            apply applyBinary_means leftMeans rightMeans
            · rw [← same]
              exact accepted
            · intro leftValue rightValue leftSorted rightSorted
              exact denoted leftValue rightValue leftSorted
                (rightSorted.trans same.symm)
        · simp at encoded
  · simp at encoded

/-- The term of an expression means the expression. -/
theorem encodeExpression_means
    {versions : VersionMap} {expression : Expression} {term : Term}
    (encoded : encodeExpression versions expression = .ok term) :
    Means versions term expression := by
  induction expression generalizing term with
  | var target =>
      simp only [encodeExpression] at encoded
      split at encoded
      · next key found =>
          simp only [Except.ok.injEq] at encoded
          subst term
          refine ⟨wellSorted_versioned found _, ?_⟩
          intro valuation
          exact (read_environmentOf found valuation versions).symm
      · simp at encoded
  | constant value =>
      simp only [encodeExpression] at encoded
      refine ⟨(encodeConstant_meaning encoded ⟨fun _ => false, fun _ _ => 0⟩).1, ?_⟩
      intro valuation
      exact (encodeConstant_meaning encoded valuation).2
  | unary operator operand induction =>
      simp only [encodeExpression] at encoded
      split at encoded
      · next argument operandEncoded =>
          exact encodeUnary_means (induction operandEncoded) encoded
      · simp at encoded
  | binary operator left right leftInduction rightInduction =>
      simp only [encodeExpression] at encoded
      split at encoded
      · simp at encoded
      · next first leftEncoded =>
          split at encoded
          · simp at encoded
          · next second rightEncoded =>
              exact encodeBinary_means (leftInduction leftEncoded)
                (rightInduction rightEncoded) encoded

/--
Under every valuation of the versioned symbols, the term that encodes an
expression has a value of its sort, and it is the value of the expression
where every variable has that of its current version.
-/
theorem eval_encodeExpression
    (versions : VersionMap) (expression : Expression) (term : Term)
    (encoded : encodeExpression versions expression = .ok term)
    (valuation : Valuation) :
    ∃ value, term.eval valuation = some value ∧ value.sort = term.sort ∧
      expression.eval (environmentOf valuation versions) = some value := by
  have means := encodeExpression_means encoded
  rcases means.wellSorted.eval_eq_some valuation with
    ⟨value, evaluated, sorted⟩
  exact ⟨value, evaluated, sorted, (means.value valuation).symm.trans evaluated⟩

/--
The least signed number of eight bits divided by minus one is itself again,
by the term as by the expression, with the dividend at its second version.
-/
theorem eval_encodeExpression_overflowing_quotient :
    ∃ term,
      encodeExpression ⟨[(⟨"x!0", .bitVec 8⟩, 2)]⟩
          (.binary .divide (.var ⟨0, "x", .integer true 8⟩)
            (.constant (.signed (-1) 8))) = .ok term ∧
        term.eval ⟨fun _ => false, fun _ width => .ofInt width (-128)⟩ =
          some (.word 8 (.ofInt 8 (-128))) ∧
        (Expression.binary .divide (.var ⟨0, "x", .integer true 8⟩)
          (.constant (.signed (-1) 8))).eval
            (environmentOf ⟨fun _ => false, fun _ width => .ofInt width (-128)⟩
              ⟨[(⟨"x!0", .bitVec 8⟩, 2)]⟩) =
          some (.word 8 (.ofInt 8 (-128))) := by
  rcases eval_encodeExpression ⟨[(⟨"x!0", .bitVec 8⟩, 2)]⟩
      (.binary .divide (.var ⟨0, "x", .integer true 8⟩)
      (.constant (.signed (-1) 8))) _ rfl
      ⟨fun _ => false, fun _ width => .ofInt width (-128)⟩ with
    ⟨value, evaluated, _, same⟩
  have known : some value = some (.word 8 (.ofInt 8 (-128))) :=
    same.symm.trans (by decide +kernel)
  exact ⟨_, rfl, evaluated.trans known, same.trans known⟩

end FlowWitness.Exploration
