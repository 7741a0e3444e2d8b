import FlowWitness.Proofs.Smt.WellSorted
import FlowWitness.Solver.Dialogue

/-!
# Honest solvers

What can be asked of a solver.  A session starts with an opening, and each
assertion adds a term to it.  A solver is honest about models if, whenever it
says that there is one, some valuation satisfies everything asserted in the
session and the values it reports afterwards are those of that valuation; it
is sound about refutations if it refutes only what no valuation satisfies.
It is exact if it is both, always answers, and always decides.

Only sessions of well-sorted conditions matter: about others nothing is asked.
-/

namespace FlowWitness.Solver

open FlowWitness.Smt

variable {State : Type}

/-- The solver is in a session in which the terms have been asserted. -/
inductive InSession (solver : Backend State) : List Term → State → Prop where
  | opened {before after : State}
      (answered : solver.openSession before = (.ok (), after)) :
      InSession solver [] after
  | asserted {terms : List Term} {term : Term} {before after : State}
      (session : InSession solver terms before)
      (answered : solver.assertTerm term before = (.ok (), after)) :
      InSession solver (terms ++ [term]) after

/-- The solver has done nothing since the start but evaluate terms. -/
inductive Evaluating (solver : Backend State) (start : State) :
    State → Prop where
  | started : Evaluating solver start start
  | evaluated {term : Term} {answer : Except SolverError ModelValue}
      {before after : State}
      (earlier : Evaluating solver start before)
      (answered : solver.evaluate term before = (answer, after)) :
      Evaluating solver start after

/-- From a state on, the values reported are those of the valuation. -/
def Reports (solver : Backend State) (valuation : Valuation) (start : State) :
    Prop :=
  ∀ before, Evaluating solver start before →
    ∀ (term : Term) (reported : ModelValue) (after : State),
      term.WellSorted →
      solver.evaluate term before = (.ok reported, after) →
      ∃ value, term.eval valuation = some value ∧ reported = value.toModel

theorem Reports.value_of_evaluate
    {solver : Backend State} {valuation : Valuation} {start : State}
    (reports : Reports solver valuation start)
    {before after : State} (evaluating : Evaluating solver start before)
    {term : Term} (wellSorted : term.WellSorted) {reported : ModelValue}
    (answered : solver.evaluate term before = (.ok reported, after)) :
    ∃ value, term.eval valuation = some value ∧ value.sort = term.sort ∧
      reported = value.toModel := by
  rcases reports before evaluating term reported after wellSorted answered with
    ⟨value, given, same⟩
  rcases wellSorted.eval_eq_some valuation with ⟨own, ownValue, sorted⟩
  rw [given, Option.some.injEq] at ownValue
  exact ⟨value, given, ownValue ▸ sorted, same⟩

/-- From a state on, the solver always has a value to report. -/
def Evaluates (solver : Backend State) (start : State) : Prop :=
  ∀ before, Evaluating solver start before →
    ∀ term : Term, term.WellSorted →
      ∃ reported after, solver.evaluate term before = (.ok reported, after)

/-- Whenever the solver says that there is a model, it has one. -/
def HonestSat (solver : Backend State) : Prop :=
  ∀ (terms : List Term) (before after : State),
    InSession solver terms before →
    (∀ term ∈ terms, term.IsCondition) →
    solver.checkSat before = (.ok .sat, after) →
    ∃ valuation : Valuation,
      valuation.SatisfiesAll terms ∧ Reports solver valuation after

/-- Whenever the solver refutes a session, there is no model. -/
def SoundUnsat (solver : Backend State) : Prop :=
  ∀ (terms : List Term) (before after : State),
    InSession solver terms before →
    (∀ term ∈ terms, term.IsCondition) →
    solver.checkSat before = (.ok .unsat, after) →
    ¬ Satisfiable terms

/-- A solver that decides every session, and never fails. -/
structure Exact (solver : Backend State) : Prop where
  honest : HonestSat solver
  sound : SoundUnsat solver
  opens : ∀ before, ∃ after, solver.openSession before = (.ok (), after)
  asserts : ∀ (terms : List Term) (term : Term) (before : State),
    InSession solver terms before →
    (∀ condition ∈ terms ++ [term], condition.IsCondition) →
    ∃ after, solver.assertTerm term before = (.ok (), after)
  decides : ∀ (terms : List Term) (before : State),
    InSession solver terms before →
    (∀ term ∈ terms, term.IsCondition) →
    ∃ after, solver.checkSat before = (.ok .unsat, after) ∨
      solver.checkSat before = (.ok .sat, after) ∧ Evaluates solver after
  closes : ∀ before, ∃ after, solver.closeSession before = (.ok (), after)

/-! ## Calls of a conversation -/

namespace Conversation

variable {Result Next : Type}

theorem andThen_eq_ok
    {first : Conversation State Result}
    {next : Result → Conversation State Next}
    {before after : Dialogue State} {result : Next}
    (done : andThen first next before = (.ok result, after)) :
    ∃ value middle, first before = (.ok value, middle) ∧
      next value middle = (.ok result, after) := by
  unfold andThen at done
  split at done
  · next value middle began => exact ⟨value, middle, began, done⟩
  · simp at done

theorem andThen_eq_error
    {first : Conversation State Result}
    {next : Result → Conversation State Next}
    {before after : Dialogue State} {failure : Failure}
    (failed : andThen first next before = (.error failure, after)) :
    first before = (.error failure, after) ∨
      ∃ value middle, first before = (.ok value, middle) ∧
        next value middle = (.error failure, after) := by
  unfold andThen at failed
  split at failed
  · next value middle began => exact Or.inr ⟨value, middle, began, failed⟩
  · next other middle began =>
      simp only [Prod.mk.injEq, Except.error.injEq] at failed
      rcases failed with ⟨rfl, rfl⟩
      exact Or.inl began

theorem call_eq_ok
    {act : State → Except SolverError Result × State}
    {note : Except SolverError Result → Interaction}
    {before after : Dialogue State} {result : Result}
    (called : call act note before = (.ok result, after)) :
    act before.solver = (.ok result, after.solver) := by
  unfold call at called
  cases answered : act before.solver with
  | mk answer state =>
      rw [answered] at called
      cases answer with
      | ok value =>
          simp only [Prod.mk.injEq, Except.ok.injEq] at called
          rcases called with ⟨rfl, rfl⟩
          rfl
      | error failure => simp at called

theorem call_eq_error
    {act : State → Except SolverError Result × State}
    {note : Except SolverError Result → Interaction}
    {before after : Dialogue State} {failure : Failure}
    (called : call act note before = (.error failure, after)) :
    ∃ error, act before.solver = (.error error, after.solver) := by
  unfold call at called
  cases answered : act before.solver with
  | mk answer state =>
      rw [answered] at called
      cases answer with
      | ok value => simp at called
      | error error =>
          simp only [Prod.mk.injEq, Except.error.injEq] at called
          rcases called with ⟨_, rfl⟩
          exact ⟨error, rfl⟩

/-- Asserting terms adds them to the session. -/
theorem inSession_assertAll
    {solver : Backend State} {more : List Term}
    {terms : List Term} {before after : Dialogue State}
    (session : InSession solver terms before.solver)
    (asserted : assertAll solver more before = (.ok (), after)) :
    InSession solver (terms ++ more) after.solver := by
  induction more generalizing terms before with
  | nil =>
      simp only [assertAll, done, Prod.mk.injEq] at asserted
      rw [List.append_nil, ← asserted.2]
      exact session
  | cons term rest induction =>
      rcases andThen_eq_ok asserted with ⟨_, middle, first, others⟩
      have further := induction (session.asserted (call_eq_ok first)) others
      simpa using further

end Conversation

end FlowWitness.Solver
