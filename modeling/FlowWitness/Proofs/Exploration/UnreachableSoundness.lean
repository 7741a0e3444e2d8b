import FlowWitness.Proofs.Exploration.Tracking
import FlowWitness.Proofs.Solver.Exhaustive

/-!
# Unreachable targets are never visited

A run of the graph that visits a target meets one first, and is tracked by the
search from the entry on.  If nothing waits any more, the run was lost in one
of two ways, and neither is silent: a state was dropped for the bound, or a
target was left undecided, and then the search does not say that its targets
are unreachable.  Pruning loses nothing, because a run that meets a target
passes retained blocks only, and neither does a refutation, because the
question about a tracked target has a model.
-/

namespace FlowWitness.Exploration

open FlowWitness.Graph
open FlowWitness.Program
open FlowWitness.Solver

/--
If a search with a solver that is sound about refutations says that no target
is reachable, then no run of the graph, from any values of parameters and
other variables, is ever at a target.
-/
theorem not_exists_run_of_unreachable
    {State : Type} (solver : Backend State) (sound : SoundUnsat solver)
    (graph : FlowGraph) (wellNumbered : graph.WellNumbered)
    (targets : List BlockId) (maxVisits : Nat)
    (before : Dialogue State) (statistics : Statistics)
    (ended : (explore solver graph targets maxVisits before).1 =
      .ok ⟨.unreachable, statistics⟩) :
    ¬ ∃ (environment : Environment) (steps : Nat) (current : Configuration),
      graph.after steps (graph.atEntry environment) = some current ∧
        current.block ∈ targets := by
  rintro ⟨environment, steps, current, reached, target⟩
  rcases FlowGraph.exists_meetsIn reached target with ⟨first, meets⟩
  rcases explore_ends solver graph targets maxVisits before with
    ⟨foreign, failed⟩ | ⟨own, ⟨outside, _⟩ | ⟨entered, ends⟩⟩
  · simp [ended] at failed
  · exact outside (entry_mem_rankedBlocks_of_meetsIn own meets)
  rw [ended] at ends
  rcases ends.ok_cases with ⟨last, searched, empty, exhausted⟩ |
    ⟨_, _, _, _, witness, _, _, _, same⟩
  · have fate := searched.fate sound wellNumbered own entered meets
    rw [fate.exhausted empty] at exhausted
    simp at exhausted
  · simp at same

/-- The parameter of the graph below. -/
def flag : Variable := ⟨0, "flag", .boolean⟩

/--
A flag that is cleared if it is set: block 2 branches on it, block 3 clears
it, the two sides join at block 4, and that leaves for the exit if it is set.
-/
def clearedFlag : FlowGraph where
  id := 0
  parameters := [flag]
  returns := []
  inner := [some (.jump (.var flag)),
    some (.assign flag (.constant (.bool false))),
    some (.jump (.var flag)), none]
  edges := [⟨0, 2, .unconditional⟩, ⟨2, 3, .onTrue⟩, ⟨2, 4, .onFalse⟩,
    ⟨3, 4, .unconditional⟩, ⟨4, 1, .onTrue⟩, ⟨4, 5, .onFalse⟩]

/-- The search refutes the exit, and no run gets there. -/
theorem clearedFlag_not_run_of_unreachable :
    (explore exhaustive clearedFlag [clearedFlag.exit] 1 (.start .none)).1 =
        .ok ⟨.unreachable, ⟨1, 5, 5, 6, 1, 0, 0⟩⟩ ∧
      ¬ ∃ (environment : Environment) (steps : Nat) (current : Configuration),
        clearedFlag.after steps (clearedFlag.atEntry environment) =
            some current ∧
          current.block ∈ [clearedFlag.exit] := by
  have ended : (explore exhaustive clearedFlag [clearedFlag.exit] 1
      (.start .none)).1 = .ok ⟨.unreachable, ⟨1, 5, 5, 6, 1, 0, 0⟩⟩ := by
    decide +kernel
  exact ⟨ended, not_exists_run_of_unreachable exhaustive
    exact_exhaustive.sound clearedFlag (by decide +kernel) _ _ _ _ ended⟩

end FlowWitness.Exploration
