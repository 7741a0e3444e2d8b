import FlowWitness.Proofs.Exploration.SearchLog

/-!
# Sessions

What is said in one question about a target, call by call.  A session that
runs to its end is opened, asserts the conditions and then the marker, is
decided, reads version zero of every parameter if there is a model, and is
closed.  All its calls are answered, and every value that is read stands for a
constant of its parameter's type.

A session breaks off with the first call that is not answered so, and that
call is its last: the failure of the question is the fault of that call, or
that its value could not be read.
-/

namespace FlowWitness.Exploration

open FlowWitness.Program
open FlowWitness.Smt
open FlowWitness.Solver
open FlowWitness.Solver.Conversation

/-! ## Whole sessions -/

/-- The verdict that an answer comes from. -/
def TargetAnswer.verdict : TargetAnswer → Verdict
  | .reached _ => .sat
  | .refuted => .unsat
  | .undecided => .unknown

/-- What is asked: the conditions from bottom to top, and the marker. -/
structure Question where
  conditions : List Term
  marker : Term

/-- The terms that a question asserts, in order. -/
def Question.terms (question : Question) : List Term :=
  question.conditions ++ [question.marker]

/-- The value of a parameter in a model, with the constant it stands for. -/
structure Reading where
  parameter : Variable
  key : SymbolKey
  value : ModelValue
  constant : Constant
  named : keyOf parameter = .ok key
  converted : value.toConstant? parameter.dataType = some constant

namespace Reading

/-- The call that reads the value. -/
def call (reading : Reading) : Interaction :=
  .evaluated (reading.key.versioned 0) (.ok reading.value)

/-- What the reading contributes to a witness. -/
def entry (reading : Reading) : Variable × Constant :=
  (reading.parameter, reading.constant)

end Reading

/-- The calls that open a session and assert terms. -/
def opening (terms : List Term) : List Interaction :=
  .opened (.ok ()) :: terms.map (fun term => .asserted term (.ok ()))

/--
A session that runs to its end, with the values of the parameters if and only
if there is a model.
-/
structure Check (parameters : List Variable) where
  question : Question
  verdict : Verdict
  readings : List Reading
  read : readings.map Reading.parameter =
    if verdict = .sat then parameters else []

namespace Check

variable {parameters : List Variable}

/-- The calls of a session before it is closed. -/
def held (check : Check parameters) : List Interaction :=
  opening check.question.terms ++
    .checked (.ok check.verdict) :: check.readings.map Reading.call

/-- The calls of a session. -/
def calls (check : Check parameters) : List Interaction :=
  check.held ++ [.closed (.ok ())]

/-- The answer that a session gives. -/
def answer (check : Check parameters) : TargetAnswer :=
  match check.verdict with
  | .sat => .reached ⟨check.readings.map Reading.entry⟩
  | .unsat => .refuted
  | .unknown => .undecided

theorem checked_mem_calls (check : Check parameters) :
    .checked (.ok check.verdict) ∈ check.calls := by
  simp [calls, held]

theorem checked_mem_flatMap
    {checks : List (Check parameters)} {check : Check parameters}
    (member : check ∈ checks) :
    .checked (.ok check.verdict) ∈ checks.flatMap calls :=
  List.mem_flatMap.mpr ⟨check, member, check.checked_mem_calls⟩

theorem verdict_answer (check : Check parameters) :
    check.answer.verdict = check.verdict := by
  rw [answer]
  split <;> next found => exact found.symm

end Check

/-! ## Sessions that break off -/

/-- The reading of the parameters breaks off. -/
inductive Stalls (parameters : List Variable) :
    Failure → List Interaction → Prop where
  | faulted (readings : List Reading) (rest : List Variable)
      {parameter : Variable} {key : SymbolKey}
      (split : parameters =
        readings.map Reading.parameter ++ parameter :: rest)
      (named : keyOf parameter = .ok key) (error : SolverError) :
      Stalls parameters (.solver error)
        (readings.map Reading.call ++
          [.evaluated (key.versioned 0) (.error error)])
  | unreadable (readings : List Reading) (rest : List Variable)
      {parameter : Variable} {key : SymbolKey} {value : ModelValue}
      (split : parameters =
        readings.map Reading.parameter ++ parameter :: rest)
      (named : keyOf parameter = .ok key)
      (unconverted : value.toConstant? parameter.dataType = none) :
      Stalls parameters
        (.solver (.unexpectedResponse
          ("(get-value (" ++ (key.versioned 0).text ++ "))") value.text))
        (readings.map Reading.call ++
          [.evaluated (key.versioned 0) (.ok value)])

/-- A session breaks off, with the failure of its last call. -/
inductive Breaks (parameters : List Variable) (question : Question) :
    Failure → List Interaction → Prop where
  | opening (error : SolverError) :
      Breaks parameters question (.solver error) [.opened (.error error)]
  | asserting {done rest : List Term} {term : Term}
      (split : question.terms = done ++ term :: rest) (error : SolverError) :
      Breaks parameters question (.solver error)
        (opening done ++ [.asserted term (.error error)])
  | checking (error : SolverError) :
      Breaks parameters question (.solver error)
        (opening question.terms ++ [.checked (.error error)])
  | reading {failure : Failure} {said : List Interaction}
      (stalls : Stalls parameters failure said) :
      Breaks parameters question failure
        (opening question.terms ++ .checked (.ok .sat) :: said)
  | closing (check : Check parameters) (asked : check.question = question)
      (error : SolverError) :
      Breaks parameters question (.solver error)
        (check.held ++ [.closed (.error error)])

/-! ## Questions -/

variable {State : Type} {solver : Backend State}
  {before after : Dialogue State} {parameters : List Variable}

theorem Stalls.cons
    {failure : Failure} {said : List Interaction} (reading : Reading)
    (stalls : Stalls parameters failure said) :
    Stalls (reading.parameter :: parameters) failure
      (reading.call :: said) := by
  cases stalls with
  | faulted readings rest split named error =>
      exact .faulted (reading :: readings) rest (by rw [split]; rfl) named error
  | unreadable readings rest split named unconverted =>
      exact .unreadable (reading :: readings) rest (by rw [split]; rfl) named
        unconverted

theorem history_of_parameterValue_eq_ok
    {parameter : Variable} {constant : Constant}
    (answered : parameterValue solver parameter before =
      (.ok constant, after)) :
    ∃ reading : Reading, reading.parameter = parameter ∧
      reading.constant = constant ∧
      after.history = before.history ++ [reading.call] := by
  cases named : keyOf parameter with
  | error violation => simp [parameterValue, named, fail] at answered
  | ok key =>
      simp only [parameterValue, named] at answered
      rcases andThen_eq_ok answered with ⟨value, middle, evaluated, read⟩
      cases converted : value.toConstant? parameter.dataType with
      | none => simp [converted, fail] at read
      | some found =>
          simp only [converted, done, Prod.mk.injEq, Except.ok.injEq] at read
          rcases read with ⟨rfl, rfl⟩
          exact ⟨⟨parameter, key, value, found, named, converted⟩, rfl, rfl,
            history_of_call_eq_ok evaluated⟩

theorem history_of_parameterValue_eq_error
    {parameter : Variable} {key : SymbolKey}
    (named : keyOf parameter = .ok key) (rest : List Variable)
    {failure : Failure}
    (failed : parameterValue solver parameter before =
      (.error failure, after)) :
    ∃ said, Stalls (parameter :: rest) failure said ∧
      after.history = before.history ++ said := by
  simp only [parameterValue, named] at failed
  rcases andThen_eq_error failed with
    evaluated | ⟨value, middle, evaluated, read⟩
  · rcases history_of_call_eq_error evaluated with ⟨error, rfl, added⟩
    exact ⟨_, .faulted [] rest rfl named error, added⟩
  · cases converted : value.toConstant? parameter.dataType with
    | some constant => simp [converted, done] at read
    | none =>
        simp only [converted, fail, Prod.mk.injEq, Except.error.injEq] at read
        rcases read with ⟨rfl, rfl⟩
        exact ⟨_, .unreadable [] rest rfl named converted,
          history_of_call_eq_ok evaluated⟩

theorem history_of_parameterValues_eq_ok
    {values : List (Variable × Constant)}
    (answered : parameterValues solver parameters before =
      (.ok values, after)) :
    ∃ readings : List Reading, readings.map Reading.parameter = parameters ∧
      readings.map Reading.entry = values ∧
      after.history = before.history ++ readings.map Reading.call := by
  induction parameters generalizing before after values with
  | nil =>
      simp only [parameterValues, done, Prod.mk.injEq, Except.ok.injEq]
        at answered
      rcases answered with ⟨rfl, rfl⟩
      exact ⟨[], rfl, rfl, (List.append_nil _).symm⟩
  | cons parameter rest induction =>
      rcases andThen_eq_ok answered with ⟨constant, middle, first, others⟩
      rcases andThen_eq_ok others with ⟨more, late, further, finished⟩
      rcases history_of_parameterValue_eq_ok first with
        ⟨reading, rfl, rfl, added⟩
      rcases induction further with ⟨readings, rfl, rfl, later⟩
      simp only [done, Prod.mk.injEq, Except.ok.injEq] at finished
      rcases finished with ⟨rfl, rfl⟩
      refine ⟨reading :: readings, rfl, rfl, ?_⟩
      rw [later, added, List.append_assoc]
      rfl

/-- The parameters are read in order, until one of them cannot be. -/
theorem history_of_parameterValues_eq_error
    (named : ∀ parameter ∈ parameters, ∃ key, keyOf parameter = .ok key)
    {failure : Failure}
    (failed : parameterValues solver parameters before =
      (.error failure, after)) :
    ∃ said, Stalls parameters failure said ∧
      after.history = before.history ++ said := by
  induction parameters generalizing before with
  | nil => simp [parameterValues, done] at failed
  | cons parameter rest induction =>
      rw [List.forall_mem_cons] at named
      rcases named with ⟨⟨key, found⟩, others⟩
      rcases andThen_eq_error failed with
        here | ⟨constant, middle, first, further⟩
      · exact history_of_parameterValue_eq_error found rest here
      · rcases history_of_parameterValue_eq_ok first with
          ⟨reading, rfl, _, added⟩
        rcases andThen_eq_error further with
          there | ⟨values, late, _, finished⟩
        · rcases induction others there with ⟨said, stalls, later⟩
          refine ⟨_, stalls.cons reading, ?_⟩
          rw [later, added, List.append_assoc]
          rfl
        · simp [done] at finished

/-- An answer comes from the readings that its verdict asks for. -/
theorem history_of_answerFor_eq_ok
    (question : Question) {verdict : Verdict} {answer : TargetAnswer}
    (answered : answerFor solver parameters verdict before =
      (.ok answer, after)) :
    ∃ check : Check parameters, check.question = question ∧
      check.verdict = verdict ∧ check.answer = answer ∧
      after.history = before.history ++ check.readings.map Reading.call := by
  cases verdict with
  | sat =>
      rcases andThen_eq_ok answered with ⟨values, late, read, finished⟩
      rcases history_of_parameterValues_eq_ok read with
        ⟨readings, parameters, rfl, added⟩
      simp only [done, Prod.mk.injEq, Except.ok.injEq] at finished
      rcases finished with ⟨rfl, rfl⟩
      exact ⟨⟨question, .sat, readings, parameters⟩, rfl, rfl, rfl, added⟩
  | unsat =>
      simp only [answerFor, done, Prod.mk.injEq, Except.ok.injEq] at answered
      rcases answered with ⟨rfl, rfl⟩
      exact ⟨⟨question, .unsat, [], rfl⟩, rfl, rfl, rfl,
        (List.append_nil _).symm⟩
  | unknown =>
      simp only [answerFor, done, Prod.mk.injEq, Except.ok.injEq] at answered
      rcases answered with ⟨rfl, rfl⟩
      exact ⟨⟨question, .unknown, [], rfl⟩, rfl, rfl, rfl,
        (List.append_nil _).symm⟩

theorem history_of_answerFor_eq_error
    (named : ∀ parameter ∈ parameters, ∃ key, keyOf parameter = .ok key)
    {verdict : Verdict} {failure : Failure}
    (failed : answerFor solver parameters verdict before =
      (.error failure, after)) :
    verdict = .sat ∧ ∃ said, Stalls parameters failure said ∧
      after.history = before.history ++ said := by
  cases verdict with
  | sat =>
      rcases andThen_eq_error failed with read | ⟨values, late, _, finished⟩
      · exact ⟨rfl, history_of_parameterValues_eq_error named read⟩
      · simp [done] at finished
  | unsat => simp [answerFor, done] at failed
  | unknown => simp [answerFor, done] at failed

variable {conditions : List Term} {marker : Term}

/-- A question that is answered is a whole session. -/
theorem history_of_askTarget_eq_ok
    {answer : TargetAnswer}
    (asked : askTarget solver parameters conditions marker before =
      (.ok answer, after)) :
    ∃ check : Check parameters, check.question = ⟨conditions, marker⟩ ∧
      check.answer = answer ∧
      after.history = before.history ++ check.calls := by
  rcases andThen_eq_ok asked with ⟨_, opened, opens, asserting⟩
  rcases andThen_eq_ok asserting with ⟨_, ready, asserts, checking⟩
  rcases andThen_eq_ok checking with ⟨verdict, checked, checks, answering⟩
  rcases andThen_eq_ok answering with ⟨given, answered, answers, closing⟩
  rcases andThen_eq_ok closing with ⟨_, closed, closes, finished⟩
  simp only [done, Prod.mk.injEq, Except.ok.injEq] at finished
  rcases finished with ⟨rfl, rfl⟩
  rcases history_of_answerFor_eq_ok ⟨conditions, marker⟩ answers with
    ⟨check, question, rfl, rfl, added⟩
  refine ⟨check, question, rfl, ?_⟩
  rw [history_of_call_eq_ok closes, added, history_of_call_eq_ok checks,
    history_of_assertAll_eq_ok asserts, history_of_call_eq_ok opens,
    Check.calls, Check.held, question, opening, Question.terms]
  simp

/-- A question that fails is a session that breaks off. -/
theorem history_of_askTarget_eq_error
    (named : ∀ parameter ∈ parameters, ∃ key, keyOf parameter = .ok key)
    {failure : Failure}
    (failed : askTarget solver parameters conditions marker before =
      (.error failure, after)) :
    ∃ said, Breaks parameters ⟨conditions, marker⟩ failure said ∧
      after.history = before.history ++ said := by
  rcases andThen_eq_error failed with opens | ⟨_, opened, opens, asserting⟩
  · rcases history_of_call_eq_error opens with ⟨error, rfl, added⟩
    exact ⟨_, .opening error, added⟩
  have opened := history_of_call_eq_ok opens
  rcases andThen_eq_error asserting with
    asserts | ⟨_, ready, asserts, checking⟩
  · rcases history_of_assertAll_eq_error asserts with
      ⟨early, term, late, error, split, rfl, added⟩
    have terms : (Question.mk conditions marker).terms =
      early ++ term :: late := split
    refine ⟨_, .asserting terms error, ?_⟩
    rw [added, opened, List.append_assoc]
    rfl
  have ready := history_of_assertAll_eq_ok asserts
  rw [opened, List.append_assoc] at ready
  rcases andThen_eq_error checking with
    checks | ⟨verdict, checked, checks, answering⟩
  · rcases history_of_call_eq_error checks with ⟨error, rfl, added⟩
    refine ⟨_, .checking error, ?_⟩
    rw [added, ready, List.append_assoc]
    rfl
  have checked := history_of_call_eq_ok checks
  rw [ready, List.append_assoc] at checked
  rcases andThen_eq_error answering with
    answers | ⟨given, answered, answers, closing⟩
  · rcases history_of_answerFor_eq_error named answers with
      ⟨rfl, said, stalls, added⟩
    refine ⟨_, .reading stalls, ?_⟩
    rw [added, checked, List.append_assoc]
    simp [opening, Question.terms]
  rcases history_of_answerFor_eq_ok ⟨conditions, marker⟩ answers with
    ⟨check, question, rfl, _, added⟩
  rcases andThen_eq_error closing with closes | ⟨_, _, _, finished⟩
  · rcases history_of_call_eq_error closes with ⟨error, rfl, ended⟩
    refine ⟨_, .closing check question error, ?_⟩
    rw [ended, added, checked, Check.held, question]
    simp [opening, Question.terms]
  · simp [done] at finished

/-! ## Faults -/

theorem fault?_of_mem_opening (terms : List Term) :
    ∀ call ∈ opening terms, call.fault? = none := by
  intro call member
  rcases List.mem_cons.mp member with rfl | asserted
  · rfl
  · rcases List.mem_map.mp asserted with ⟨term, _, rfl⟩
    rfl

theorem fault?_of_mem_readings (readings : List Reading) :
    ∀ call ∈ readings.map Reading.call, call.fault? = none := by
  intro call member
  rcases List.mem_map.mp member with ⟨reading, _, rfl⟩
  rfl

theorem Check.fault?_of_mem_held
    (check : Check parameters) :
    ∀ call ∈ check.held, call.fault? = none := by
  rw [Check.held, List.forall_mem_append, List.forall_mem_cons]
  exact ⟨fault?_of_mem_opening _, rfl, fault?_of_mem_readings _⟩

theorem Check.fault?_of_mem_calls
    (check : Check parameters) :
    ∀ call ∈ check.calls, call.fault? = none := by
  intro call member
  rcases List.mem_append.mp member with held | closed
  · exact check.fault?_of_mem_held call held
  · rw [List.mem_singleton.mp closed]
    rfl

/-- The reading of the parameters breaks off at its last call. -/
theorem Stalls.exists_last
    {failure : Failure} {said : List Interaction}
    (stalls : Stalls parameters failure said) :
    ∃ early last, said = early ++ [last] ∧
      (∀ call ∈ early, call.fault? = none) ∧
      ∀ error, last.fault? = some error → failure = .solver error := by
  cases stalls with
  | faulted readings rest split named error =>
      refine ⟨_, _, rfl, fault?_of_mem_readings readings, ?_⟩
      rintro _ ⟨rfl⟩
      rfl
  | unreadable readings rest split named unconverted =>
      exact ⟨_, _, rfl, fault?_of_mem_readings readings,
        by simp [Interaction.fault?]⟩

/-- A session breaks off at its last call, and no call before that fails. -/
theorem Breaks.exists_last
    {question : Question} {failure : Failure} {said : List Interaction}
    (breaks : Breaks parameters question failure said) :
    ∃ early last, said = early ++ [last] ∧
      (∀ call ∈ early, call.fault? = none) ∧
      ∀ error, last.fault? = some error → failure = .solver error := by
  cases breaks with
  | opening error =>
      refine ⟨[], _, rfl, by simp, ?_⟩
      rintro _ ⟨rfl⟩
      rfl
  | asserting split error =>
      refine ⟨_, _, rfl, fault?_of_mem_opening _, ?_⟩
      rintro _ ⟨rfl⟩
      rfl
  | checking error =>
      refine ⟨_, _, rfl, fault?_of_mem_opening _, ?_⟩
      rintro _ ⟨rfl⟩
      rfl
  | reading stalls =>
      rcases stalls.exists_last with ⟨early, last, rfl, faultless, blamed⟩
      refine ⟨Exploration.opening question.terms ++
        .checked (.ok .sat) :: early, last, by simp, ?_, blamed⟩
      rw [List.forall_mem_append, List.forall_mem_cons]
      exact ⟨fault?_of_mem_opening _, rfl, faultless⟩
  | closing check asked error =>
      refine ⟨_, _, rfl, check.fault?_of_mem_held, ?_⟩
      rintro _ ⟨rfl⟩
      rfl

/-- A session breaks off because of the solver, and of nothing else. -/
theorem Breaks.exists_solver
    {question : Question} {failure : Failure} {said : List Interaction}
    (breaks : Breaks parameters question failure said) :
    ∃ error, failure = .solver error := by
  cases breaks with
  | opening error => exact ⟨error, rfl⟩
  | asserting split error => exact ⟨error, rfl⟩
  | checking error => exact ⟨error, rfl⟩
  | reading stalls =>
      cases stalls with
      | faulted readings rest split named error => exact ⟨error, rfl⟩
      | unreadable readings rest split named unconverted => exact ⟨_, rfl⟩
  | closing check asked error => exact ⟨error, rfl⟩

/-- A session that breaks off has a call that fails, or a model to read. -/
theorem Breaks.fault_or_model
    {question : Question} {failure : Failure} {said : List Interaction}
    (breaks : Breaks parameters question failure said) :
    (∃ call ∈ said, ∃ error, call.fault? = some error) ∨
      .checked (.ok .sat) ∈ said := by
  cases breaks with
  | opening error =>
      exact Or.inl ⟨_, List.mem_singleton_self _, error, rfl⟩
  | asserting split error =>
      exact Or.inl ⟨_, List.mem_concat_self, error, rfl⟩
  | checking error =>
      exact Or.inl ⟨_, List.mem_concat_self, error, rfl⟩
  | reading stalls =>
      exact Or.inr (List.mem_append_right _ List.mem_cons_self)
  | closing check asked error =>
      exact Or.inl ⟨_, List.mem_concat_self, error, rfl⟩

end FlowWitness.Exploration
