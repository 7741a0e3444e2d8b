import FlowWitness.Exploration.Search
import FlowWitness.Proofs.Exploration.EncodingMeaning
import FlowWitness.Proofs.Exploration.Versions
import FlowWitness.Proofs.Solver.Honesty

/-!
# Questions to the solver

What an answer about a target is worth.  If the solver is honest about
models, a witness comes from a valuation that satisfies everything asserted,
and gives each parameter the value of its first version there.  If it is sound
about refutations, a refuted target has no such valuation.  And an exact
solver is never undecided, and fails on nothing but a parameter that has no
symbol at all.
-/

namespace FlowWitness.Exploration

open FlowWitness.Program
open FlowWitness.Smt
open FlowWitness.Solver

/-! ## Reported values as constants -/

/-- A value of a parameter's sort is reported as the constant it stands for. -/
theorem exists_toConstant?
    {parameter : Variable} {key : SymbolKey}
    (found : keyOf parameter = .ok key)
    {value : Value} (sorted : value.sort = key.sort) :
    ∃ constant, value.toModel.toConstant? parameter.dataType = some constant ∧
      constant.value = value := by
  rcases sortOf_eq_ok (keyOf_eq_ok found).2 with
    ⟨typed, keySort⟩ | ⟨signed, bits, typed, keySort, positive, supported⟩
  · rw [keySort] at sorted
    cases value with
    | bool truth =>
        exact ⟨.bool truth, by simp [Value.toModel, ModelValue.toConstant?, typed],
          rfl⟩
    | word width word => simp [Value.sort] at sorted
  · rw [keySort] at sorted
    cases value with
    | bool truth => simp [Value.sort] at sorted
    | word width word =>
        simp only [Value.sort, SmtSort.bitVec.injEq] at sorted
        subst width
        simp only [Value.toModel, ModelValue.toConstant?, typed,
          ModelValue.bits?, Option.bind_some, Constant.ofBits?, positive,
          supported, and_self, if_true]
        cases signed with
        | true =>
            refine ⟨_, rfl, ?_⟩
            simp only [Constant.value, Value.word.injEq, heq_eq_eq, true_and]
            apply BitVec.eq_of_toNat_eq
            rw [BitVec.toNat_ofInt, wordCount, Nat.pow_eq, Int.bmod_emod,
              Int.emod_eq_of_lt (Int.natCast_nonneg _)
                (Int.ofNat_lt.mpr word.isLt), Int.toNat_natCast]
        | false =>
            refine ⟨_, rfl, ?_⟩
            simp only [Constant.value, Value.word.injEq, heq_eq_eq, true_and]
            apply BitVec.eq_of_toNat_eq
            rw [BitVec.toNat_ofNat, wordCount, Nat.pow_eq, Nat.mod_mod,
              Nat.mod_eq_of_lt word.isLt]

variable {State : Type} {solver : Backend State} {valuation : Valuation}
  {start : State}

/-! ## Witnesses -/

theorem parameterValue_eq_ok
    (reports : Reports solver valuation start)
    {parameter : Variable} {before after : Dialogue State}
    {constant : Constant}
    (evaluating : Evaluating solver start before.solver)
    (answered : parameterValue solver parameter before =
      (.ok constant, after)) :
    (environmentOf valuation .empty).read parameter = some constant.value ∧
      Evaluating solver start after.solver := by
  unfold parameterValue at answered
  cases found : keyOf parameter with
  | error violation => simp [found, Conversation.fail] at answered
  | ok key =>
      rw [found] at answered
      rcases Conversation.andThen_eq_ok answered with
        ⟨reported, middle, evaluated, read⟩
      have called := Conversation.call_eq_ok evaluated
      have wellSorted := wellSorted_versioned found 0
      rcases reports.value_of_evaluate evaluating wellSorted called with
        ⟨value, given, sorted, rfl⟩
      rcases exists_toConstant? found sorted with ⟨expected, converted, same⟩
      simp only [converted, Conversation.done, Prod.mk.injEq,
        Except.ok.injEq] at read
      rcases read with ⟨rfl, rfl⟩
      refine ⟨?_, evaluating.evaluated called⟩
      rw [read_environmentOf found, VersionMap.get_empty, given, same]

theorem parameterValues_eq_ok
    (reports : Reports solver valuation start)
    {parameters : List Variable} {before after : Dialogue State}
    {values : List (Variable × Constant)}
    (evaluating : Evaluating solver start before.solver)
    (answered : parameterValues solver parameters before =
      (.ok values, after)) :
    values.map Prod.fst = parameters ∧
      ∀ entry ∈ values,
        (environmentOf valuation .empty).read entry.1 =
          some entry.2.value := by
  induction parameters generalizing before after values with
  | nil =>
      simp only [parameterValues, Conversation.done, Prod.mk.injEq,
        Except.ok.injEq] at answered
      rw [← answered.1]
      simp
  | cons parameter rest induction =>
      rcases Conversation.andThen_eq_ok answered with
        ⟨constant, middle, first, others⟩
      rcases Conversation.andThen_eq_ok others with
        ⟨more, later, further, finished⟩
      rcases parameterValue_eq_ok reports evaluating first with
        ⟨here, stillEvaluating⟩
      rcases induction stillEvaluating further with ⟨names, there⟩
      simp only [Conversation.done, Prod.mk.injEq, Except.ok.injEq] at finished
      rw [← finished.1]
      refine ⟨by simp [names], ?_⟩
      rw [List.forall_mem_cons]
      exact ⟨here, there⟩

/-! ## Answers -/

variable {parameters : List Variable} {conditions : List Term} {marker : Term}
  {before after : Dialogue State}

/-- An answer comes from a check of everything that was asserted. -/
theorem askTarget_eq_ok
    {answer : TargetAnswer}
    (asked : askTarget solver parameters conditions marker before =
      (.ok answer, after)) :
    ∃ (ready checked answered : Dialogue State) (verdict : Verdict),
      InSession solver (conditions ++ [marker]) ready.solver ∧
      solver.checkSat ready.solver = (.ok verdict, checked.solver) ∧
      answerFor solver parameters verdict checked = (.ok answer, answered) := by
  rcases Conversation.andThen_eq_ok asked with ⟨_, opened, opening, asserting⟩
  rcases Conversation.andThen_eq_ok asserting with
    ⟨_, ready, asserted, checking⟩
  rcases Conversation.andThen_eq_ok checking with
    ⟨verdict, checked, check, answering⟩
  rcases Conversation.andThen_eq_ok answering with
    ⟨given, answered, answers, closing⟩
  rcases Conversation.andThen_eq_ok closing with ⟨_, closed, _, finished⟩
  simp only [Conversation.done, Prod.mk.injEq, Except.ok.injEq] at finished
  rcases finished with ⟨rfl, _⟩
  refine ⟨ready, checked, answered, verdict, ?_, Conversation.call_eq_ok check,
    answers⟩
  have session := Conversation.inSession_assertAll
    (.opened (Conversation.call_eq_ok opening)) asserted
  simpa using session

/-- The witness of an honest solver comes from a model of what was asserted. -/
theorem exists_model_of_reached
    (honest : HonestSat solver)
    (wellFormed : ∀ term ∈ conditions ++ [marker], term.IsCondition)
    {witness : Witness}
    (asked : askTarget solver parameters conditions marker before =
      (.ok (.reached witness), after)) :
    ∃ model : Valuation, model.SatisfiesAll (conditions ++ [marker]) ∧
      witness.values.map Prod.fst = parameters ∧
      ∀ entry ∈ witness.values,
        (environmentOf model .empty).read entry.1 = some entry.2.value := by
  rcases askTarget_eq_ok asked with
    ⟨ready, checked, answered, verdict, session, check, answers⟩
  cases verdict with
  | sat =>
      rcases Conversation.andThen_eq_ok answers with
        ⟨values, later, valued, finished⟩
      simp only [Conversation.done, Prod.mk.injEq, Except.ok.injEq,
        TargetAnswer.reached.injEq] at finished
      rcases finished with ⟨rfl, _⟩
      rcases honest _ _ _ session wellFormed check with
        ⟨model, satisfied, reports⟩
      exact ⟨model, satisfied, parameterValues_eq_ok reports .started valued⟩
  | unsat => simp [answerFor, Conversation.done] at answers
  | unknown => simp [answerFor, Conversation.done] at answers

/-- What a sound solver refutes has no model. -/
theorem not_satisfiable_of_refuted
    (sound : SoundUnsat solver)
    (wellFormed : ∀ term ∈ conditions ++ [marker], term.IsCondition)
    (asked : askTarget solver parameters conditions marker before =
      (.ok .refuted, after)) :
    ¬ Satisfiable (conditions ++ [marker]) := by
  rcases askTarget_eq_ok asked with
    ⟨ready, checked, answered, verdict, session, check, answers⟩
  cases verdict with
  | sat =>
      rcases Conversation.andThen_eq_ok answers with
        ⟨values, later, _, finished⟩
      simp [Conversation.done] at finished
  | unsat => exact sound _ _ _ session wellFormed check
  | unknown => simp [answerFor, Conversation.done] at answers

/-! ## Exact solvers -/

theorem parameterValue_eq_error
    (reports : Reports solver valuation start)
    (evaluates : Evaluates solver start)
    {parameter : Variable} {failure : Failure}
    (evaluating : Evaluating solver start before.solver)
    (failed : parameterValue solver parameter before =
      (.error failure, after)) :
    ∃ violation, failure = .contract violation := by
  unfold parameterValue at failed
  cases found : keyOf parameter with
  | error violation =>
      simp only [found, Conversation.fail, Prod.mk.injEq,
        Except.error.injEq] at failed
      exact ⟨violation, failed.1.symm⟩
  | ok key =>
      rw [found] at failed
      have wellSorted := wellSorted_versioned found 0
      rcases evaluates before.solver evaluating _ wellSorted with
        ⟨reported, next, called⟩
      rcases reports.value_of_evaluate evaluating wellSorted called with
        ⟨value, given, sorted, rfl⟩
      rcases exists_toConstant? found sorted with ⟨constant, converted, _⟩
      simp [Conversation.andThen, Conversation.evaluate, Conversation.call,
        called, converted, Conversation.done] at failed

theorem parameterValues_eq_error
    (reports : Reports solver valuation start)
    (evaluates : Evaluates solver start)
    {parameters : List Variable} {failure : Failure}
    (evaluating : Evaluating solver start before.solver)
    (failed : parameterValues solver parameters before =
      (.error failure, after)) :
    ∃ violation, failure = .contract violation := by
  induction parameters generalizing before after with
  | nil => simp [parameterValues, Conversation.done] at failed
  | cons parameter rest induction =>
      rcases Conversation.andThen_eq_error failed with
        first | ⟨constant, middle, first, others⟩
      · exact parameterValue_eq_error reports evaluates evaluating first
      · have stillEvaluating :=
          (parameterValue_eq_ok reports evaluating first).2
        rcases Conversation.andThen_eq_error others with
          further | ⟨more, later, _, finished⟩
        · exact induction stillEvaluating further
        · simp [Conversation.done] at finished

theorem assertAll_ne_error
    (ideal : Exact solver) {terms more : List Term}
    (session : InSession solver terms before.solver)
    (wellFormed : ∀ term ∈ terms ++ more, term.IsCondition)
    {failure : Failure} :
    Conversation.assertAll solver more before ≠ (.error failure, after) := by
  intro failed
  induction more generalizing terms before with
  | nil => simp [Conversation.assertAll, Conversation.done] at failed
  | cons term rest induction =>
      have wellFormedHere : ∀ condition ∈ terms ++ [term],
          condition.IsCondition :=
        fun condition member => wellFormed condition (by
          rcases List.mem_append.mp member with old | new
          · simp [old]
          · simp_all)
      rcases ideal.asserts terms term before.solver session wellFormedHere with
        ⟨next, called⟩
      rcases Conversation.andThen_eq_error failed with
        first | ⟨_, middle, first, others⟩
      · rcases Conversation.call_eq_error first with ⟨error, answered⟩
        simp [called] at answered
      · exact induction (session.asserted (Conversation.call_eq_ok first))
          (by simpa using wellFormed) others

/-- An exact solver always has an answer, if the parameters have symbols. -/
theorem askTarget_eq_error
    (ideal : Exact solver)
    (wellFormed : ∀ term ∈ conditions ++ [marker], term.IsCondition)
    {failure : Failure}
    (failed : askTarget solver parameters conditions marker before =
      (.error failure, after)) :
    ∃ violation, failure = .contract violation := by
  rcases Conversation.andThen_eq_error failed with
    opening | ⟨_, opened, opening, asserting⟩
  · rcases Conversation.call_eq_error opening with ⟨error, answered⟩
    rcases ideal.opens before.solver with ⟨next, called⟩
    simp [called] at answered
  have session : InSession solver [] opened.solver :=
    .opened (Conversation.call_eq_ok opening)
  rcases Conversation.andThen_eq_error asserting with
    asserted | ⟨_, ready, asserted, checking⟩
  · exact (assertAll_ne_error ideal session (by simpa using wellFormed)
      asserted).elim
  have complete : InSession solver (conditions ++ [marker]) ready.solver := by
    simpa using Conversation.inSession_assertAll session asserted
  rcases ideal.decides _ _ complete wellFormed with ⟨next, decided⟩
  rcases Conversation.andThen_eq_error checking with
    check | ⟨verdict, checked, check, answering⟩
  · rcases Conversation.call_eq_error check with ⟨error, answered⟩
    rcases decided with refuted | ⟨found, _⟩
    · simp [refuted] at answered
    · simp [found] at answered
  have called := Conversation.call_eq_ok check
  rcases Conversation.andThen_eq_error answering with
    answers | ⟨answer, answered, _, closing⟩
  · rcases decided with refuted | ⟨found, evaluates⟩
    · simp only [refuted, Prod.mk.injEq, Except.ok.injEq] at called
      rcases called with ⟨rfl, _⟩
      simp [answerFor, Conversation.done] at answers
    · simp only [found, Prod.mk.injEq, Except.ok.injEq] at called
      rcases called with ⟨rfl, rfl⟩
      rcases ideal.honest _ _ _ complete wellFormed found with
        ⟨model, _, reports⟩
      rcases Conversation.andThen_eq_error answers with
        values | ⟨values, later, _, finished⟩
      · exact parameterValues_eq_error reports evaluates .started values
      · simp [Conversation.done] at finished
  · rcases Conversation.andThen_eq_error closing with
      close | ⟨_, closed, _, finished⟩
    · rcases Conversation.call_eq_error close with ⟨error, answeredClose⟩
      rcases ideal.closes answered.solver with ⟨next, called⟩
      simp [called] at answeredClose
    · simp [Conversation.done] at finished

/-- An exact solver is never undecided. -/
theorem askTarget_ne_undecided
    (ideal : Exact solver)
    (wellFormed : ∀ term ∈ conditions ++ [marker], term.IsCondition) :
    askTarget solver parameters conditions marker before ≠
      (.ok .undecided, after) := by
  intro asked
  rcases askTarget_eq_ok asked with
    ⟨ready, checked, answered, verdict, session, check, answers⟩
  rcases ideal.decides _ _ session wellFormed with ⟨next, decided⟩
  rcases decided with refuted | ⟨found, _⟩
  · simp only [refuted, Prod.mk.injEq, Except.ok.injEq] at check
    rcases check with ⟨rfl, _⟩
    simp [answerFor, Conversation.done] at answers
  · simp only [found, Prod.mk.injEq, Except.ok.injEq] at check
    rcases check with ⟨rfl, _⟩
    rcases Conversation.andThen_eq_ok answers with
      ⟨values, later, _, finished⟩
    simp [Conversation.done] at finished

end FlowWitness.Exploration
