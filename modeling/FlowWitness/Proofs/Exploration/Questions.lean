import FlowWitness.Proofs.Exploration.SearchSteps
import FlowWitness.Proofs.Solver.Transcript

/-!
# What a search says to the solver

A question about a batch at a target asserts the conditions of the merged
state and the marker of the visit, asks for one verdict, and asks for version
zero of the parameters if there is a model.  A step asks at most this one
question, and a batch at any other block is dealt with in silence.
-/

namespace FlowWitness.Exploration

open FlowWitness.Graph
open FlowWitness.Program
open FlowWitness.Smt
open FlowWitness.Solver
open FlowWitness.Solver.Conversation

variable {State : Type}

/-! ## Questions -/

/-- The calls of a question that asserts the terms. -/
def Asks (parameters : List Variable) (terms : List Term) :
    Interaction → Prop
  | .asserted term _ => term ∈ terms
  | .evaluated term _ => ∃ parameter ∈ parameters, ∃ key,
      keyOf parameter = .ok key ∧ term = key.versioned 0
  | .opened _ | .checked _ | .closed _ => True

theorem callsOnly_parameterValues
    (solver : Backend State) {all : List Variable} (terms : List Term)
    {parameters : List Variable}
    (inside : ∀ parameter ∈ parameters, parameter ∈ all) :
    CallsOnly (Asks all terms) (parameterValues solver parameters) := by
  induction parameters with
  | nil => exact callsOnly_done []
  | cons parameter rest induction =>
      rw [List.forall_mem_cons] at inside
      have one : CallsOnly (Asks all terms)
          (parameterValue solver parameter) := by
        rw [parameterValue]
        cases found : keyOf parameter with
        | error violation => exact callsOnly_fail _
        | ok key =>
            refine (callsOnly_call fun answer => ?_).andThen ?_
            · exact ⟨parameter, inside.1, key, found, rfl⟩
            · intro value _ _ _
              cases value.toConstant? parameter.dataType with
              | some constant => exact callsOnly_done constant
              | none => exact callsOnly_fail _
      exact one.andThen (fun _ _ _ _ =>
        (induction inside.2).andThen (fun _ _ _ _ => callsOnly_done _))

theorem callsOnly_askTarget
    (solver : Backend State) (parameters : List Variable)
    (conditions : List Term) (marker : Term) :
    CallsOnly (Asks parameters (conditions ++ [marker]))
      (askTarget solver parameters conditions marker) := by
  have answers : ∀ verdict, CallsOnly (Asks parameters (conditions ++ [marker]))
      (answerFor solver parameters verdict) := by
    intro verdict
    cases verdict with
    | sat =>
        refine CallsOnly.andThen ?_ fun _ _ _ _ => callsOnly_done _
        exact callsOnly_parameterValues solver _ fun _ member => member
    | unsat => exact callsOnly_done _
    | unknown => exact callsOnly_done _
  refine (callsOnly_call fun _ => trivial).andThen fun _ _ _ _ => ?_
  refine (callsOnly_assertAll solver _ fun _ member _ => member).andThen
    fun _ _ _ _ => ?_
  refine (callsOnly_call fun _ => trivial).andThen fun verdict _ _ _ => ?_
  refine (answers verdict).andThen fun _ _ _ _ => ?_
  refine (callsOnly_call fun _ => trivial).andThen fun _ _ _ _ => ?_
  exact callsOnly_done _

/-- A question is left undecided only where the solver said so. -/
theorem exists_unknown_of_undecided
    {solver : Backend State} {parameters : List Variable}
    {conditions : List Term} {marker : Term} {before after : Dialogue State}
    (asked : askTarget solver parameters conditions marker before =
      (.ok .undecided, after)) :
    ∃ call ∈ after.calls, call.verdict? = some .unknown := by
  rcases andThen_eq_ok asked with ⟨_, _, _, asserting⟩
  rcases andThen_eq_ok asserting with ⟨_, ready, _, checking⟩
  rcases andThen_eq_ok checking with ⟨verdict, checked, check, answering⟩
  rcases andThen_eq_ok answering with ⟨given, answered, answers, closing⟩
  rcases andThen_eq_ok closing with ⟨_, closed, close, finished⟩
  simp only [done, Prod.mk.injEq, Except.ok.injEq] at finished
  rcases finished with ⟨rfl, rfl⟩
  have noted := calls_of_call_eq_ok check
  have closes := calls_of_call_eq_ok close
  cases verdict with
  | sat =>
      rcases andThen_eq_ok answers with ⟨_, _, _, other⟩
      simp [done] at other
  | unsat => simp [answerFor, done] at answers
  | unknown =>
      simp only [answerFor, done, Prod.mk.injEq, true_and] at answers
      subst answers
      refine ⟨.checked (.ok .unknown), ?_, rfl⟩
      simp [closes, noted]

/-! ## Steps -/

namespace Problem

variable {problem : Problem} {run : Run} {batch : Batch PathState}

theorem step_of_spent
    (solver : Backend State)
    (spent : problem.maxVisits ≤ run.merged.count batch.block) :
    problem.step solver run batch =
      done (.continuing (run.drop batch.states.length)) := by
  simp only [step, if_pos spent]

theorem step_of_target
    (solver : Backend State)
    (fresh : run.merged.count batch.block < problem.maxVisits)
    (target : batch.block ∈ problem.targets) :
    problem.step solver run batch =
      andThen (problem.ask solver run batch)
        (problem.conclude (run.afterMerge batch).countCheck
          (run.mergedState batch) (run.marker batch.block)) := by
  simp only [step, if_neg (Nat.not_le.mpr fresh), List.contains_eq_mem,
    target, decide_true, if_true]
  rfl

theorem step_of_inner
    (solver : Backend State)
    (fresh : run.merged.count batch.block < problem.maxVisits)
    (inner : batch.block ∉ problem.targets) :
    problem.step solver run batch =
      problem.proceed (run.afterMerge batch) (run.mergedState batch)
        (run.marker batch.block) := by
  simp only [step, if_neg (Nat.not_le.mpr fresh), List.contains_eq_mem,
    inner, decide_false, Bool.false_eq_true, if_false]
  rfl

/-- Going on past a block is no matter for the solver. -/
theorem callsOnly_proceed (run : Run) (source : PathState) (marker : Term) :
    CallsOnly (fun _ => False) (problem.proceed run source marker :
      Conversation State Progress) := by
  rw [proceed]
  cases problem.advance run source marker with
  | ok next => exact callsOnly_done _
  | error violation => exact callsOnly_fail _

/-- A step says no more than the question about its batch. -/
theorem callsOnly_step
    (solver : Backend State) (run : Run) (batch : Batch PathState) :
    CallsOnly (Asks problem.graph.parameters
        ((run.mergedState batch).conditions.terms ++ [run.marker batch.block]))
      (problem.step solver run batch) := by
  rcases Nat.lt_or_ge (run.merged.count batch.block) problem.maxVisits with
    fresh | spent
  · by_cases target : batch.block ∈ problem.targets
    · rw [step_of_target solver fresh target]
      refine (callsOnly_askTarget solver _ _ _).andThen fun answer _ _ _ => ?_
      cases answer with
      | reached witness => exact callsOnly_done _
      | refuted => exact callsOnly_done _
      | undecided => exact (callsOnly_proceed _ _ _).mono fun _ => False.elim
    · rw [step_of_inner solver fresh target]
      exact (callsOnly_proceed _ _ _).mono fun _ => False.elim
  · rw [step_of_spent solver spent]
    exact callsOnly_done _

end Problem

end FlowWitness.Exploration
