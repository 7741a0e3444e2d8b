import FlowWitness.Proofs.Exploration.Departures
import FlowWitness.Proofs.Exploration.Joins
import FlowWitness.Proofs.Exploration.Queueing
import FlowWitness.Proofs.Solver.Honesty

/-!
# Steps of a search

What one step of the loop can do with the states taken at a rank: drop them,
merge them and go on past the block, merge them and have the solver refute or
not decide the target, or find a witness.  A run is searched if it comes about
from the seed by such steps; what every searched run has in common is shown
by induction over them.
-/

namespace FlowWitness.Exploration

open FlowWitness.Graph
open FlowWitness.Program
open FlowWitness.Smt
open FlowWitness.Solver

namespace Run

/-- The states that wait. -/
def waiting (run : Run) : List PathState :=
  run.worklist.waiting

/-- The run whose first batch has been taken, which leaves the rest. -/
def leaving (run : Run) (rest : Worklist PathState) : Run :=
  { run with worklist := rest }

/-- The marker of the next visit to a block. -/
def marker (run : Run) (block : BlockId) : Term :=
  reachMarker block (run.merged.count block)

/-- The state that the states of a batch merge into. -/
def mergedState (run : Run) (batch : Batch PathState) : PathState :=
  (mergeStates run.supply batch.block (run.marker batch.block)
    batch.states).1

/-- The run after the states of a batch were merged. -/
def afterMerge (run : Run) (batch : Batch PathState) : Run :=
  run.countMerge batch.block batch.states.length
    (mergeStates run.supply batch.block (run.marker batch.block)
      batch.states).2

end Run

variable {State : Type}

namespace Problem

/-- The question put to the solver about a batch at a target. -/
def ask (problem : Problem) (solver : Backend State) (run : Run)
    (batch : Batch PathState) : Conversation State TargetAnswer :=
  askTarget solver problem.graph.parameters
    (run.mergedState batch).conditions.terms (run.marker batch.block)

/-- What a step can do with a batch, short of finding a witness. -/
inductive Moves (problem : Problem) (solver : Backend State)
    (before : Dialogue State) (run : Run) (batch : Batch PathState) :
    Run → Prop where
  | dropped (spent : problem.maxVisits ≤ run.merged.count batch.block) :
      Moves problem solver before run batch (run.drop batch.states.length)
  | passed {edges : List Departure}
      (fresh : run.merged.count batch.block < problem.maxVisits)
      (inner : batch.block ∉ problem.targets)
      (leaves : Leaves problem.graph batch.block
        (mergedVersions batch.states) edges) :
      Moves problem solver before run batch
        (problem.queueAll (run.mergedState batch) (run.marker batch.block)
          edges (run.afterMerge batch))
  | refuted {after : Dialogue State}
      (fresh : run.merged.count batch.block < problem.maxVisits)
      (target : batch.block ∈ problem.targets)
      (asked : problem.ask solver run batch before = (.ok .refuted, after)) :
      Moves problem solver before run batch (run.afterMerge batch).countCheck
  | undecided {after : Dialogue State} {edges : List Departure}
      (fresh : run.merged.count batch.block < problem.maxVisits)
      (target : batch.block ∈ problem.targets)
      (asked : problem.ask solver run batch before = (.ok .undecided, after))
      (leaves : Leaves problem.graph batch.block
        (mergedVersions batch.states) edges) :
      Moves problem solver before run batch
        (problem.queueAll (run.mergedState batch) (run.marker batch.block)
          edges (run.afterMerge batch).countCheck.countUndecided)

/-- A step that ends the search with a witness. -/
structure Finds (problem : Problem) (solver : Backend State)
    (before : Dialogue State) (run : Run) (batch : Batch PathState)
    (witness : Witness) : Prop where
  target : batch.block ∈ problem.targets
  asked : ∃ after,
    problem.ask solver run batch before = (.ok (.reached witness), after)

/-! ## The step function takes these steps -/

theorem proceed_eq_ok
    {problem : Problem} {run : Run} {source : PathState} {marker : Term}
    {before after : Dialogue State} {progress : Progress}
    (done : problem.proceed run source marker before = (.ok progress, after)) :
    ∃ edges, Leaves problem.graph source.block source.versions edges ∧
      progress = .continuing (problem.queueAll source marker edges run) := by
  cases moved : problem.advance run source marker with
  | ok next =>
      rcases advance_eq_ok moved with ⟨edges, leaves, rfl⟩
      simp only [proceed, moved, Conversation.done, Prod.mk.injEq,
        Except.ok.injEq] at done
      exact ⟨edges, leaves, done.1.symm⟩
  | error violation => simp [proceed, moved, Conversation.fail] at done

theorem proceed_eq_error
    {problem : Problem} {run : Run} {source : PathState} {marker : Term}
    {before after : Dialogue State} {failure : Failure}
    (failed : problem.proceed run source marker before =
      (.error failure, after)) :
    ∃ violation, problem.advance run source marker = .error violation ∧
      failure = .contract violation := by
  cases moved : problem.advance run source marker with
  | ok next => simp [proceed, moved, Conversation.done] at failed
  | error violation =>
      simp only [proceed, moved, Conversation.fail, Prod.mk.injEq,
        Except.error.injEq] at failed
      exact ⟨violation, rfl, failed.1.symm⟩

/-- A step makes a move, or finds a witness. -/
theorem step_eq_ok
    {problem : Problem} {solver : Backend State} {run : Run}
    {batch : Batch PathState} {before after : Dialogue State}
    {progress : Progress}
    (done : problem.step solver run batch before = (.ok progress, after)) :
    (∃ next, progress = .continuing next ∧
      problem.Moves solver before run batch next) ∨
    ∃ witness statistics, progress = .finished ⟨.reachable witness, statistics⟩ ∧
      problem.Finds solver before run batch witness := by
  unfold step at done
  simp only at done
  split at done
  · next spent =>
      simp only [Conversation.done, Prod.mk.injEq, Except.ok.injEq] at done
      exact Or.inl ⟨_, done.1.symm, .dropped spent⟩
  · next notSpent =>
      have fresh : run.merged.count batch.block < problem.maxVisits :=
        Nat.lt_of_not_le notSpent
      split at done
      · next contained =>
          have target : batch.block ∈ problem.targets := by
            simpa using contained
          rcases Conversation.andThen_eq_ok done with
            ⟨answer, middle, asked, concluded⟩
          cases answer with
          | reached witness =>
              simp only [conclude, Conversation.done, Prod.mk.injEq,
                Except.ok.injEq] at concluded
              exact Or.inr ⟨witness, _, concluded.1.symm, target, middle, asked⟩
          | refuted =>
              simp only [conclude, Conversation.done, Prod.mk.injEq,
                Except.ok.injEq] at concluded
              exact Or.inl ⟨_, concluded.1.symm, .refuted fresh target asked⟩
          | undecided =>
              rcases proceed_eq_ok concluded with ⟨edges, leaves, same⟩
              rw [mergeStates_block, mergeStates_versions] at leaves
              exact Or.inl ⟨_, same, .undecided fresh target asked leaves⟩
      · next notContained =>
          have inner : batch.block ∉ problem.targets := by
            simpa using notContained
          rcases proceed_eq_ok done with ⟨edges, leaves, same⟩
          rw [mergeStates_block, mergeStates_versions] at leaves
          exact Or.inl ⟨_, same, .passed fresh inner leaves⟩

/-- A step fails by a contract violation, or in the question to the solver. -/
theorem step_eq_error
    {problem : Problem} {solver : Backend State} {run : Run}
    {batch : Batch PathState} {before after : Dialogue State}
    {failure : Failure}
    (failed : problem.step solver run batch before = (.error failure, after)) :
    (∃ violation, failure = .contract violation) ∨
      problem.ask solver run batch before = (.error failure, after) := by
  unfold step at failed
  simp only at failed
  split at failed
  · simp [Conversation.done] at failed
  · split at failed
    · rcases Conversation.andThen_eq_error failed with
        asking | ⟨answer, middle, _, concluding⟩
      · exact Or.inr asking
      · cases answer with
        | reached witness => simp [conclude, Conversation.done] at concluding
        | refuted => simp [conclude, Conversation.done] at concluding
        | undecided =>
            rcases proceed_eq_error concluding with ⟨violation, _, same⟩
            exact Or.inl ⟨violation, same⟩
    · rcases proceed_eq_error failed with ⟨violation, _, same⟩
      exact Or.inl ⟨violation, same⟩

/-! ## Searched runs -/

/-- A run that comes about in a search. -/
inductive Searched (problem : Problem) (solver : Backend State) :
    Run → Prop where
  | start {statistics : Statistics} {run : Run}
      (seeded : problem.seed statistics = .ok run) :
      Searched problem solver run
  | move {run next : Run} {batch : Batch PathState}
      {rest : Worklist PathState} {before : Dialogue State}
      (searched : Searched problem solver run)
      (popped : run.worklist.pop? = some (batch, rest))
      (moves : problem.Moves solver before (run.leaving rest) batch next) :
      Searched problem solver next

end Problem

end FlowWitness.Exploration
