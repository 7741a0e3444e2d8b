import FlowWitness.Proofs.Smt.Semantics

/-!
# Well-sorted terms

A term is well sorted if every function in it takes the sorts of its
arguments.  A well-sorted term has a value of its sort under every valuation,
and the connectives then mean what their names say: the laws below are what
later arguments use of conjunctions, disjunctions and implications.
-/

namespace FlowWitness.Smt

/-! ## Functions have values where they take the sorts -/

/-- A sort with values here: truth values, and words of at least one bit. -/
def SmtSort.isGround : SmtSort → Bool
  | .bool => true
  | .bitVec width => 0 < width
  | _ => false

theorem UnaryFunction.denote_of_accepts
    (function : UnaryFunction) (value : Value)
    (accepted : function.accepts value.sort = true) :
    ∃ result, function.denote value = some result ∧
      result.sort = function.result value.sort := by
  cases function <;> cases value <;>
    simp_all [accepts, denote, UnaryFunction.result, Value.sort]

namespace BinaryFunction

theorem sameness_of_sort_eq
    (whenSame : Bool) {first second : Value}
    (same : first.sort = second.sort) :
    ∃ truth, sameness whenSame first second = some (.bool truth) := by
  cases first with
  | bool left =>
      cases second with
      | bool right => exact ⟨_, rfl⟩
      | word width bits => simp [Value.sort] at same
  | word width left =>
      cases second with
      | bool right => simp [Value.sort] at same
      | word other right =>
          simp only [Value.sort, SmtSort.bitVec.injEq] at same
          subst other
          exact ⟨(left == right) == whenSame, by
            simp [sameness, Value.onPairs]⟩

/-- Two values of one bit-vector sort are words of one width. -/
theorem words_of_sort_eq
    {first second : Value}
    (vectors : first.sort.width?.isSome = true)
    (same : first.sort = second.sort) :
    ∃ (width : Nat) (left right : BitVec width),
      first = .word width left ∧ second = .word width right := by
  cases first with
  | bool left => simp [Value.sort, SmtSort.width?] at vectors
  | word width left =>
      cases second with
      | bool right => simp [Value.sort] at same
      | word other right =>
          simp only [Value.sort, SmtSort.bitVec.injEq] at same
          subst other
          exact ⟨width, left, right, rfl, rfl⟩

/-- Two values of the boolean sort are truth values. -/
theorem truths_of_sort_eq
    {first second : Value}
    (left : first.sort = .bool) (right : second.sort = .bool) :
    ∃ firstTruth secondTruth : Bool,
      first = .bool firstTruth ∧ second = .bool secondTruth := by
  cases first with
  | bool firstTruth =>
      cases second with
      | bool secondTruth => exact ⟨firstTruth, secondTruth, rfl, rfl⟩
      | word width bits => simp [Value.sort] at right
  | word width bits => simp [Value.sort] at left

theorem denote_of_accepts
    (function : BinaryFunction) (first second : Value)
    (accepted : function.accepts first.sort second.sort = true) :
    ∃ result, function.denote first second = some result ∧
      result.sort = function.result first.sort := by
  cases function with
  | and | or | implies =>
      simp only [accepts, Bool.and_eq_true, beq_iff_eq] at accepted
      rcases truths_of_sort_eq accepted.1 accepted.2 with
        ⟨left, right, rfl, rfl⟩
      exact ⟨_, rfl, rfl⟩
  | equal | distinct =>
      simp only [accepts, beq_iff_eq] at accepted
      rcases sameness_of_sort_eq _ accepted with ⟨truth, equation⟩
      exact ⟨.bool truth, equation, rfl⟩
  | bvAdd | bvSub | bvMul | bvUdiv | bvSdiv | bvUrem | bvSrem | bvAnd | bvOr
  | bvXor | bvShl | bvLshr | bvAshr =>
      simp only [accepts, Bool.and_eq_true, beq_iff_eq] at accepted
      rcases words_of_sort_eq accepted.1 accepted.2 with
        ⟨width, left, right, rfl, rfl⟩
      exact ⟨_, arithmetic_word _ width left right, rfl⟩
  | bvUlt | bvUle | bvUgt | bvUge | bvSlt | bvSle | bvSgt | bvSge =>
      simp only [accepts, Bool.and_eq_true, beq_iff_eq] at accepted
      rcases words_of_sort_eq accepted.1 accepted.2 with
        ⟨width, left, right, rfl, rfl⟩
      exact ⟨_, comparison_word _ width left right, rfl⟩
  | _ => simp [accepts] at accepted

end BinaryFunction

/-! ## Well-sorted terms -/

namespace Term

/-- Every function in the term takes the sorts of its arguments. -/
inductive WellSorted : Term → Prop where
  | bool (value : Bool) : WellSorted (.bool value)
  | bitVec {value width : Nat} (positive : 0 < width)
      (below : value < wordCount width) : WellSorted (.bitVec value width)
  | constant (name : String) {sort : SmtSort} (ground : sort.isGround = true) :
      WellSorted (.constant name sort)
  | applyUnary {function : UnaryFunction} {argument : Term}
      (wellSorted : WellSorted argument)
      (accepted : function.accepts argument.sort = true) :
      WellSorted (.applyUnary function argument)
  | applyBinary {function : BinaryFunction} {first second : Term}
      (firstWellSorted : WellSorted first)
      (secondWellSorted : WellSorted second)
      (accepted : function.accepts first.sort second.sort = true) :
      WellSorted (.applyBinary function first second)

/-- A well-sorted term has a value of its sort under every valuation. -/
theorem WellSorted.eval_eq_some
    {term : Term} (wellSorted : term.WellSorted) (valuation : Valuation) :
    ∃ value, term.eval valuation = some value ∧ value.sort = term.sort := by
  induction wellSorted with
  | bool value => exact ⟨.bool value, rfl, rfl⟩
  | bitVec positive below => exact ⟨_, rfl, rfl⟩
  | @constant name sort ground =>
      cases sort with
      | bool => exact ⟨_, rfl, rfl⟩
      | bitVec width => exact ⟨_, rfl, rfl⟩
      | _ => simp [SmtSort.isGround] at ground
  | @applyUnary function argument _ accepted induction =>
      rcases induction with ⟨value, evaluated, sorted⟩
      rcases function.denote_of_accepts value (sorted ▸ accepted) with
        ⟨result, denoted, resultSorted⟩
      refine ⟨result, ?_, ?_⟩
      · rw [eval_applyUnary, evaluated]
        exact denoted
      · rw [resultSorted, sorted]
        rfl
  | @applyBinary function first second _ _ accepted left right =>
      rcases left with ⟨leftValue, leftEvaluated, leftSorted⟩
      rcases right with ⟨rightValue, rightEvaluated, rightSorted⟩
      rcases function.denote_of_accepts leftValue rightValue
          (leftSorted ▸ rightSorted ▸ accepted) with
        ⟨result, denoted, resultSorted⟩
      refine ⟨result, ?_, ?_⟩
      · rw [eval_applyBinary, leftEvaluated, rightEvaluated]
        exact denoted
      · rw [resultSorted, leftSorted]
        rfl

/-- A well-sorted term that is true or false. -/
structure IsCondition (term : Term) : Prop where
  wellSorted : term.WellSorted
  boolean : term.sort = .bool

theorem IsCondition.eval_eq_bool
    {term : Term} (condition : term.IsCondition) (valuation : Valuation) :
    ∃ truth, term.eval valuation = some (.bool truth) := by
  rcases condition.wellSorted.eval_eq_some valuation with
    ⟨value, evaluated, sorted⟩
  rw [condition.boolean] at sorted
  cases value with
  | bool truth => exact ⟨truth, evaluated⟩
  | word width bits => simp [Value.sort] at sorted

/-! ## The connectives build conditions -/

theorem isCondition_bool (value : Bool) : (Term.bool value).IsCondition :=
  ⟨.bool value, rfl⟩

theorem isCondition_constant (name : String) :
    (Term.constant name .bool).IsCondition :=
  ⟨.constant name rfl, rfl⟩

theorem IsCondition.negation
    {condition : Term} (well : condition.IsCondition) :
    condition.negation.IsCondition :=
  ⟨.applyUnary well.wellSorted (by rw [well.boolean]; rfl), rfl⟩

theorem IsCondition.applyLogical
    {first second : Term} (function : BinaryFunction)
    (left : first.IsCondition) (right : second.IsCondition)
    (accepted : function.accepts .bool .bool = true)
    (boolean : function.result .bool = .bool) :
    (Term.applyBinary function first second).IsCondition :=
  ⟨.applyBinary left.wellSorted right.wellSorted (by
      rw [left.boolean, right.boolean]
      exact accepted), by
    change function.result first.sort = .bool
    rw [left.boolean]
    exact boolean⟩

theorem IsCondition.conjunction
    {first second : Term}
    (left : first.IsCondition) (right : second.IsCondition) :
    (Term.conjunction first second).IsCondition :=
  left.applyLogical .and right rfl rfl

theorem IsCondition.disjunction
    {first second : Term}
    (left : first.IsCondition) (right : second.IsCondition) :
    (Term.disjunction first second).IsCondition :=
  left.applyLogical .or right rfl rfl

theorem IsCondition.implication
    {first second : Term}
    (left : first.IsCondition) (right : second.IsCondition) :
    (Term.implication first second).IsCondition :=
  left.applyLogical .implies right rfl rfl

theorem isCondition_equation
    {first second : Term}
    (left : first.WellSorted) (right : second.WellSorted)
    (same : first.sort = second.sort) :
    (Term.equation first second).IsCondition :=
  ⟨.applyBinary left right (by simp [BinaryFunction.accepts, same]), rfl⟩

theorem isCondition_foldl
    (combine : Term → Term → Term)
    (combined : ∀ {first second : Term},
      first.IsCondition → second.IsCondition →
        (combine first second).IsCondition)
    (rest : List Term) (first : Term)
    (start : first.IsCondition)
    (conditions : ∀ term ∈ rest, term.IsCondition) :
    (rest.foldl combine first).IsCondition := by
  induction rest generalizing first with
  | nil => exact start
  | cons head tail induction =>
      apply induction
      · exact combined start (conditions head List.mem_cons_self)
      · intro term member
        exact conditions term (List.mem_cons_of_mem head member)

theorem isCondition_conjoin
    {terms : List Term} (conditions : ∀ term ∈ terms, term.IsCondition) :
    (Term.conjoin terms).IsCondition := by
  have kept : ∀ term ∈ terms.filter (fun term => !term.isTrue),
      term.IsCondition :=
    fun term member => conditions term (List.mem_filter.mp member).1
  rw [Term.conjoin]
  split
  · exact isCondition_bool true
  · next first rest filtered =>
      rw [filtered, List.forall_mem_cons] at kept
      exact isCondition_foldl Term.conjunction IsCondition.conjunction
        rest first kept.1 kept.2

theorem isCondition_disjoin
    {terms : List Term} (conditions : ∀ term ∈ terms, term.IsCondition) :
    (Term.disjoin terms).IsCondition := by
  have kept : ∀ term ∈ terms.filter (fun term => !term.isFalse),
      term.IsCondition :=
    fun term member => conditions term (List.mem_filter.mp member).1
  rw [Term.disjoin]
  split
  · exact isCondition_bool false
  · next first rest filtered =>
      rw [filtered, List.forall_mem_cons] at kept
      exact isCondition_foldl Term.disjunction IsCondition.disjunction
        rest first kept.1 kept.2

end Term

/-! ## The connectives mean what their names say -/

namespace Valuation

variable {valuation : Valuation} {first second : Term}

theorem satisfies_bool {value : Bool} :
    valuation.Satisfies (.bool value) ↔ value = true := by
  simp [Satisfies]

/-- Only the literal itself is recognised as `true`. -/
theorem satisfies_of_isTrue {term : Term} (literal : term.isTrue = true) :
    valuation.Satisfies term := by
  cases term with
  | bool value =>
      exact satisfies_bool.mpr literal
  | _ => simp [Term.isTrue] at literal

/-- Only the literal itself is recognised as `false`. -/
theorem not_satisfies_of_isFalse
    {term : Term} (literal : term.isFalse = true) :
    ¬ valuation.Satisfies term := by
  cases term with
  | bool value =>
      intro satisfied
      simp [Term.isFalse, satisfies_bool.mp satisfied] at literal
  | _ => simp [Term.isFalse] at literal

theorem satisfies_conjunction :
    valuation.Satisfies (.conjunction first second) ↔
      valuation.Satisfies first ∧ valuation.Satisfies second := by
  unfold Satisfies Term.conjunction
  rw [Term.eval_applyBinary]
  cases first.eval valuation with
  | none => simp
  | some left =>
      cases second.eval valuation with
      | none => simp
      | some right =>
          cases left <;> cases right <;>
            simp [BinaryFunction.denote, BinaryFunction.logical,
              Value.onTruths]

/-- One side of a true disjunction is true. -/
theorem satisfies_or_of_disjunction
    (satisfied : valuation.Satisfies (.disjunction first second)) :
    valuation.Satisfies first ∨ valuation.Satisfies second := by
  unfold Satisfies Term.disjunction at *
  rw [Term.eval_applyBinary] at satisfied
  cases leftValue : first.eval valuation with
  | none => simp [leftValue] at satisfied
  | some left =>
      cases rightValue : second.eval valuation with
      | none => simp [leftValue, rightValue] at satisfied
      | some right =>
          rw [leftValue, rightValue] at satisfied
          cases left <;> cases right <;>
            simp_all [BinaryFunction.denote, BinaryFunction.logical,
              Value.onTruths]

theorem satisfies_disjunction
    (left : first.IsCondition) (right : second.IsCondition) :
    valuation.Satisfies (.disjunction first second) ↔
      valuation.Satisfies first ∨ valuation.Satisfies second := by
  rcases left.eval_eq_bool valuation with ⟨leftTruth, leftValue⟩
  rcases right.eval_eq_bool valuation with ⟨rightTruth, rightValue⟩
  simp [Satisfies, Term.disjunction, leftValue, rightValue,
    BinaryFunction.denote, BinaryFunction.logical]

theorem satisfies_implication
    (left : first.IsCondition) (right : second.IsCondition) :
    valuation.Satisfies (.implication first second) ↔
      (valuation.Satisfies first → valuation.Satisfies second) := by
  rcases left.eval_eq_bool valuation with ⟨leftTruth, leftValue⟩
  rcases right.eval_eq_bool valuation with ⟨rightTruth, rightValue⟩
  cases leftTruth <;>
    simp [Satisfies, Term.implication, leftValue, rightValue,
      BinaryFunction.denote, BinaryFunction.logical]

theorem satisfies_negation
    {condition : Term} {truth : Bool}
    (evaluated : condition.eval valuation = some (.bool truth)) :
    valuation.Satisfies condition.negation ↔ truth = false := by
  simp [Satisfies, Term.negation, evaluated, UnaryFunction.denote]

theorem satisfies_equation
    {left right : Value}
    (leftValue : first.eval valuation = some left)
    (rightValue : second.eval valuation = some right)
    (same : left.sort = right.sort) :
    valuation.Satisfies (.equation first second) ↔ left = right := by
  unfold Satisfies Term.equation
  rw [Term.eval_applyBinary, leftValue, rightValue]
  cases left with
  | bool leftTruth =>
      cases right with
      | bool rightTruth =>
          simp [BinaryFunction.denote, BinaryFunction.sameness, Value.onPairs]
      | word width bits => simp [Value.sort] at same
  | word width leftBits =>
      cases right with
      | bool rightTruth => simp [Value.sort] at same
      | word other rightBits =>
          simp only [Value.sort, SmtSort.bitVec.injEq] at same
          subst other
          simp [BinaryFunction.denote, BinaryFunction.sameness, Value.onPairs]

theorem satisfies_foldl_conjunction (rest : List Term) (first : Term) :
    valuation.Satisfies (rest.foldl Term.conjunction first) ↔
      valuation.Satisfies first ∧ valuation.SatisfiesAll rest := by
  induction rest generalizing first with
  | nil => simp [SatisfiesAll]
  | cons head tail induction =>
      rw [List.foldl_cons, induction, satisfies_conjunction]
      simp [SatisfiesAll, and_assoc]

/-- A conjunction is true if all its members are. -/
theorem satisfies_conjoin {terms : List Term} :
    valuation.Satisfies (.conjoin terms) ↔ valuation.SatisfiesAll terms := by
  have dropped :
      valuation.SatisfiesAll (terms.filter (fun term => !term.isTrue)) ↔
        valuation.SatisfiesAll terms := by
    constructor
    · intro satisfied term member
      cases literal : term.isTrue with
      | true => exact satisfies_of_isTrue literal
      | false =>
          exact satisfied term
            (List.mem_filter.mpr ⟨member, by simp [literal]⟩)
    · intro satisfied term member
      exact satisfied term (List.mem_filter.mp member).1
  rw [← dropped, Term.conjoin]
  split
  · next filtered => simp [filtered, SatisfiesAll, satisfies_bool]
  · next first rest filtered =>
      rw [filtered, satisfies_foldl_conjunction]
      simp [SatisfiesAll]

theorem exists_satisfied_of_foldl_disjunction
    (rest : List Term) (first : Term)
    (satisfied : valuation.Satisfies (rest.foldl Term.disjunction first)) :
    ∃ term ∈ first :: rest, valuation.Satisfies term := by
  induction rest generalizing first with
  | nil => exact ⟨first, List.mem_cons_self, satisfied⟩
  | cons head tail induction =>
      rcases induction _ satisfied with ⟨term, member, holds⟩
      rcases List.mem_cons.mp member with rfl | inTail
      · rcases satisfies_or_of_disjunction holds with left | right
        · exact ⟨first, by simp, left⟩
        · exact ⟨head, by simp, right⟩
      · exact ⟨term, by simp [inTail], holds⟩

/-- A true disjunction has a true member. -/
theorem exists_satisfied_of_disjoin
    {terms : List Term} (satisfied : valuation.Satisfies (.disjoin terms)) :
    ∃ term ∈ terms, valuation.Satisfies term := by
  rw [Term.disjoin] at satisfied
  split at satisfied
  · simp [satisfies_bool] at satisfied
  · next first rest filtered =>
      rcases exists_satisfied_of_foldl_disjunction rest first satisfied with
        ⟨term, member, holds⟩
      rw [← filtered] at member
      exact ⟨term, (List.mem_filter.mp member).1, holds⟩

theorem satisfies_foldl_disjunction
    (rest : List Term) (first : Term)
    (start : first.IsCondition)
    (conditions : ∀ term ∈ rest, term.IsCondition)
    (some : ∃ term ∈ first :: rest, valuation.Satisfies term) :
    valuation.Satisfies (rest.foldl Term.disjunction first) := by
  induction rest generalizing first with
  | nil => simpa using some
  | cons head tail induction =>
      rw [List.forall_mem_cons] at conditions
      apply induction _ (start.disjunction conditions.1) conditions.2
      rcases some with ⟨term, member, holds⟩
      have joined :
          valuation.Satisfies (.disjunction first head) ↔
            valuation.Satisfies first ∨ valuation.Satisfies head :=
        satisfies_disjunction start conditions.1
      rcases List.mem_cons.mp member with rfl | inRest
      · exact ⟨_, List.mem_cons_self, joined.mpr (Or.inl holds)⟩
      · rcases List.mem_cons.mp inRest with rfl | inTail
        · exact ⟨_, List.mem_cons_self, joined.mpr (Or.inr holds)⟩
        · exact ⟨term, List.mem_cons_of_mem _ inTail, holds⟩

/-- A disjunction of conditions with a true member is true. -/
theorem satisfies_disjoin_of_mem
    {terms : List Term} (conditions : ∀ term ∈ terms, term.IsCondition)
    {term : Term} (member : term ∈ terms)
    (holds : valuation.Satisfies term) :
    valuation.Satisfies (.disjoin terms) := by
  have kept : ∀ other ∈ terms.filter (fun other => !other.isFalse),
      other.IsCondition :=
    fun other inFilter => conditions other (List.mem_filter.mp inFilter).1
  have notLiteral : term.isFalse = false := by
    cases literal : term.isFalse with
    | false => rfl
    | true => exact (not_satisfies_of_isFalse literal holds).elim
  have survives : term ∈ terms.filter (fun other => !other.isFalse) :=
    List.mem_filter.mpr ⟨member, by simp [notLiteral]⟩
  rw [Term.disjoin]
  split
  · next filtered => simp [filtered] at survives
  · next first rest filtered =>
      rw [filtered] at survives
      rw [filtered, List.forall_mem_cons] at kept
      exact satisfies_foldl_disjunction rest first kept.1 kept.2
        ⟨term, survives, holds⟩

end Valuation

end FlowWitness.Smt
