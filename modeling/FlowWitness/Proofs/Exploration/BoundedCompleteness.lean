import FlowWitness.Proofs.Exploration.Tracking
import FlowWitness.Proofs.Solver.Exhaustive

/-!
# How far the bound on visits reaches

With an exact solver, what can keep a search from a target that some run
meets?  Only the bound: a search that does not find the target has dropped a
state that stood for the run, at a block that had used up its visits.

The visits of a block are counted over the whole search and not along a path.
States that come to a block over another path are merged when their rank is
due, which may be before the run's own state is there, and use up visits that
the run itself never makes.  So a run that passes no block more often than
the bound allows may still be dropped, and the search then says that it does
not know; the last section has a graph where this happens.
-/

namespace FlowWitness.Exploration

open FlowWitness.Graph
open FlowWitness.Program
open FlowWitness.Smt
open FlowWitness.Solver

section ExactSolvers

variable {State : Type} {solver : Backend State} {problem : Problem}
  {run : Run} {batch : Batch PathState} {rest : Worklist PathState}

/-- An exact solver leaves no target undecided. -/
theorem Problem.not_waversAt
    (ideal : Exact solver) : ¬ problem.WaversAt solver run batch rest := by
  rintro ⟨searched, popped, before, after, asked⟩
  exact askTarget_ne_undecided ideal
    (searched.tidy.isCondition_asked popped) asked

/-- With an exact solver, a search fails by a contract violation only. -/
theorem Problem.Ends.contract_of_error
    (ideal : Exact solver) {failure : Failure}
    (ends : problem.Ends solver (.error failure)) :
    ∃ violation, failure = .contract violation := by
  cases ends with
  | violated violation => exact ⟨violation, rfl⟩
  | failed searched popped asked =>
      exact askTarget_eq_error ideal
        (searched.tidy.isCondition_asked popped) asked

/-- An exact solver loses a run by the bound only. -/
theorem Fate.dropped_of_empty
    (ideal : Exact solver) {start : Configuration} {steps : Nat}
    (fate : Fate problem solver start steps run)
    (empty : run.worklist.batches = []) :
    0 < run.statistics.droppedStates ∧
      ∃ passed dropping batch rest, passed ≤ steps ∧
        problem.DropsAt solver start passed dropping batch rest := by
  cases fate with
  | tracked split reached meets tracks =>
      have waits := tracks.waits
      simp [Run.waiting, Worklist.waiting, empty] at waits
  | undecided some wavers =>
      rcases wavers with ⟨wavering, batch, rest, wavers⟩
      exact (Problem.not_waversAt ideal wavers).elim
  | dropped some drops => exact ⟨some, drops⟩

end ExactSolvers

/--
If a run meets a target and passes no block more often than the bound allows,
then a search with an exact solver finds a witness, unless the graph breaks
the contract or the visits of a block on the way are used up: at some moment
a state that stands for the run is dropped at a block which the run has
passed, this time included, at most as often as the bound allows, while the
search has merged it as often already.  In that case the search says that it
does not know, and never that the targets are unreachable.
-/
theorem reachable_or_dropped_of_meetsIn
    {State : Type} (solver : Backend State) (ideal : Exact solver)
    (graph : FlowGraph) (wellNumbered : graph.WellNumbered)
    (targets : List BlockId) (maxVisits : Nat)
    (environment : Environment) (steps : Nat)
    (meets : graph.MeetsIn targets steps (graph.atEntry environment))
    (within : ∀ block,
      (graph.trail steps (graph.atEntry environment)).count block ≤ maxVisits)
    (before : Dialogue State)
    (lawful : ∀ violation,
      (explore solver graph targets maxVisits before).1 ≠
        .error (.contract violation)) :
    ∃ report, (explore solver graph targets maxVisits before).1 = .ok report ∧
      (report.outcome.isReachable = true ∨
        report.outcome = .unknown ∧ 0 < report.statistics.droppedStates ∧
          ∃ passed run batch rest, passed ≤ steps ∧
            (Problem.ofTargets graph targets maxVisits).DropsAt solver
              (graph.atEntry environment) passed run batch rest ∧
            (graph.trail passed (graph.atEntry environment)).count
              batch.block ≤ maxVisits) := by
  rcases explore_ends solver graph targets maxVisits before with
    ⟨foreign, failed⟩ | ⟨own, ⟨outside, _⟩ | ⟨entered, ends⟩⟩
  · exact (lawful _ failed).elim
  · exact (outside (entry_mem_rankedBlocks_of_meetsIn own meets)).elim
  cases explored : (explore solver graph targets maxVisits before).1 with
  | error failure =>
      rw [explored] at ends
      rcases ends.contract_of_error ideal with ⟨violation, rfl⟩
      exact (lawful violation explored).elim
  | ok report =>
      rw [explored] at ends
      refine ⟨report, rfl, ?_⟩
      rcases ends.ok_cases with ⟨last, searched, empty, rfl⟩ |
        ⟨_, _, _, _, witness, _, _, _, same⟩
      · -- Nothing waits any more, so the run is tracked no longer.
        have fate :=
          searched.fate ideal.sound wellNumbered own entered meets
        rcases fate.dropped_of_empty ideal empty with
          ⟨some, passed, run, batch, rest, early, drops⟩
        rw [fate.exhausted empty]
        refine Or.inr ⟨rfl, some, passed, run, batch, rest, early, drops, ?_⟩
        exact Nat.le_trans ((graph.trail_isPrefix _ early).sublist.count_le _)
          (within batch.block)
      · exact Or.inl (by rw [same]; rfl)

/-! ## Visits used up by another path -/

/-- The parameter of the graph below. -/
def detour : Variable := ⟨0, "detour", .boolean⟩

/-- The flag of the graph below. -/
def ready : Variable := ⟨1, "ready", .boolean⟩

/--
A graph with a loop that can be entered at two places.  Block 2 clears the
flag and block 3 branches: on the detour, block 4 sets the flag and hands on
to block 5; otherwise block 5 comes at once.  Block 5 leaves for the exit if
the flag is set, and goes back to block 4 if not.
-/
def twoDoors : FlowGraph where
  id := 0
  parameters := [detour]
  returns := []
  inner := [some (.assign ready (.constant (.bool false))),
    some (.jump (.var detour)),
    some (.assign ready (.constant (.bool true))),
    some (.jump (.var ready))]
  edges := [⟨0, 2, .unconditional⟩, ⟨2, 3, .unconditional⟩, ⟨3, 4, .onTrue⟩,
    ⟨3, 5, .onFalse⟩, ⟨4, 5, .unconditional⟩, ⟨5, 1, .onTrue⟩,
    ⟨5, 4, .onFalse⟩]

/-- Everything is true, or zero. -/
def allTrue : Environment := ⟨fun _ => true, fun _ _ => 0⟩

/--
On the detour, the run passes six blocks, each once, and ends at the exit; but
block 5 is merged first for the other path, and with one visit to a block the
search drops the state that comes over the detour.
-/
theorem unknown_though_met_within_bound :
    Exact exhaustive ∧ twoDoors.WellNumbered ∧
      twoDoors.MeetsIn [twoDoors.exit] 5 (twoDoors.atEntry allTrue) ∧
      (∀ block,
        (twoDoors.trail 5 (twoDoors.atEntry allTrue)).count block ≤ 1) ∧
      (explore exhaustive twoDoors [twoDoors.exit] 1 (.start .none)).1 =
        .ok ⟨.unknown, ⟨0, 6, 6, 7, 1, 0, 1⟩⟩ := by
  refine ⟨exact_exhaustive, by decide +kernel, by decide +kernel, ?_, ?_⟩
  · exact List.nodup_iff_count_le_one.mp (by decide +kernel)
  · decide +kernel

/-- What is dropped there is a state that stands for the run itself. -/
theorem twoDoors_drops_run :
    ∃ passed run batch rest, passed ≤ 5 ∧
      (Problem.ofTargets twoDoors [twoDoors.exit] 1).DropsAt exhaustive
        (twoDoors.atEntry allTrue) passed run batch rest ∧
      (twoDoors.trail passed (twoDoors.atEntry allTrue)).count
        batch.block ≤ 1 := by
  have explored :
      (explore exhaustive twoDoors [twoDoors.exit] 1 (.start .none)).1 =
        .ok ⟨.unknown, ⟨0, 6, 6, 7, 1, 0, 1⟩⟩ := by decide +kernel
  rcases reachable_or_dropped_of_meetsIn exhaustive exact_exhaustive twoDoors
      (by decide +kernel) [twoDoors.exit] 1 allTrue 5 (by decide +kernel)
      (List.nodup_iff_count_le_one.mp (by decide +kernel)) (.start .none)
      (by simp [explored]) with
    ⟨report, same, reachable | ⟨_, _, drops⟩⟩
  · rw [explored, Except.ok.injEq] at same
    rw [← same] at reachable
    simp [Outcome.isReachable] at reachable
  · exact drops

end FlowWitness.Exploration
