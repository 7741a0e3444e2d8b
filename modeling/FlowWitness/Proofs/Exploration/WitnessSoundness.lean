import FlowWitness.Proofs.Exploration.Asking
import FlowWitness.Proofs.Exploration.SearchEnd
import FlowWitness.Proofs.Solver.Exhaustive

/-!
# Witnesses lead to a target

A waiting state stands for real runs: under every valuation that satisfies its
conditions and takes the edge it came along, the graph has a run from the
entry to its block, and the variables have the values of its versions there.
The run starts from the first versions of all symbols, whatever happens on
the way.

One merge takes this from the states of a batch to the merged state, since
the join says which of them has arrived; one way out takes it from there to
the states queued, since ways out are steps of the graph.  So it holds of
every state that a search ever queues, through any number of joins and visits
of a loop, and a model that makes the visit to a target is such a run.
-/

namespace FlowWitness.Exploration

open FlowWitness.Graph
open FlowWitness.Program
open FlowWitness.Smt
open FlowWitness.Solver

/--
A run from the entry gets to the block, with the values that the versions
have under the valuation.
-/
def RunsTo (graph : FlowGraph) (valuation : Valuation) (block : BlockId)
    (versions : VersionMap) : Prop :=
  ∃ steps environment,
    graph.after steps (graph.atEntry (environmentOf valuation .empty)) =
        some ⟨block, environment⟩ ∧
      Environment.AgreeOn graph.mentioned environment
        (environmentOf valuation versions)

namespace RunsTo

variable {graph : FlowGraph} {valuation : Valuation} {block : BlockId}
  {versions : VersionMap}

theorem atEntry
    (zero : ∀ key, versions.get key = 0) :
    RunsTo graph valuation graph.entry versions := by
  refine ⟨0, environmentOf valuation .empty, rfl, ?_⟩
  intro target _
  apply read_environmentOf_congr
  intro key _
  rw [zero key, VersionMap.get_empty]

theorem of_sameValues
    (runs : RunsTo graph valuation block versions)
    {merged : VersionMap} (same : SameValues valuation merged versions) :
    RunsTo graph valuation block merged := by
  rcases runs with ⟨steps, environment, reached, agrees⟩
  refine ⟨steps, environment, reached, ?_⟩
  intro target member
  exact (agrees target member).trans (same.read_environmentOf target).symm

/-- A way out whose condition holds is one more step of the run. -/
theorem depart
    (runs : RunsTo graph valuation block versions)
    (wellNumbered : graph.WellNumbered)
    {edges : List Departure} (leaves : Leaves graph block versions edges)
    {edge : Departure} (member : edge ∈ edges)
    (holds : valuation.Satisfies edge.condition) :
    RunsTo graph valuation edge.next edge.versions := by
  rcases runs with ⟨steps, environment, reached, agrees⟩
  rcases leaves.next?_of_satisfies wellNumbered member agrees holds with
    ⟨after, moved, agreesAfter⟩
  exact ⟨steps + 1, after, (FlowGraph.after_succ reached).trans moved,
    agreesAfter⟩

end RunsTo

/-- Every waiting state stands for runs of the graph. -/
def Run.Realized (graph : FlowGraph) (run : Run) : Prop :=
  ∀ state ∈ run.waiting, ∀ valuation : Valuation,
    valuation.SatisfiesAll state.conditions.terms →
    state.Arrives valuation →
    RunsTo graph valuation state.block state.versions

namespace Run.Realized

variable {problem : Problem} {run : Run} {batch : Batch PathState}
  {rest : Worklist PathState}

/-- A visit that is made under a valuation is made by a run. -/
theorem runsTo_of_marker
    (realized : run.Realized problem.graph) (tidy : run.Tidy problem)
    (popped : run.worklist.pop? = some (batch, rest))
    {valuation : Valuation}
    (satisfied : valuation.SatisfiesAll
      ((run.leaving rest).mergedState batch).conditions.terms)
    (present : valuation.Satisfies (run.marker batch.block)) :
    RunsTo problem.graph valuation batch.block
      (mergedVersions batch.states) := by
  have filed := tidy.filed_of_batch popped
  have proper := tidy.proper_of_batch popped
  have terms := (tidy.mergedState_conditions popped).2
  have arrival : ∀ state ∈ batch.states, state.Arrives valuation →
      RunsTo problem.graph valuation batch.block state.versions := by
    intro state member arrives
    rw [← filed.gathered state member]
    apply realized state (Tidy.mem_waiting_of_batch popped member) valuation _
      arrives
    intro term inside
    exact satisfied term ((terms term).mpr (Or.inl ⟨state, member, inside⟩))
  -- Only the seed comes without a join, and it is where runs start.
  rcases tidy.seed_or_edges popped with ⟨versions, seed, zero⟩ | edges
  · have here := filed.gathered (.seed problem.graph.entry versions)
      (by simp [seed])
    rw [← here]
    apply RunsTo.atEntry
    intro key
    simpa [mergedVersions, seed, PathState.seed, VersionMap.mergeAll] using
      zero key
  · rcases List.exists_mem_of_ne_nil _ filed.occupied with ⟨first, member⟩
    rcases exists_join (run.marker batch.block) member
        (edges first member) (mergedVersions batch.states) with
      ⟨join, joins⟩
    rcases exists_arrives_of_join proper
        (isCondition_reachMarker _ _) joins
        (satisfied join ((terms join).mpr (Or.inr joins))) present with
      ⟨state, inside, arrives, same⟩
    exact (arrival state inside arrives).of_sameValues same

theorem start
    {statistics : Statistics} (seeded : problem.seed statistics = .ok run) :
    run.Realized problem.graph := by
  rcases Problem.seed_eq_ok seeded with ⟨versions, _, zero, rfl⟩
  intro state member valuation _ _
  rcases Problem.mem_waiting_enqueue member with old | rfl
  · simp [Run.waiting, Worklist.waiting, Worklist.empty] at old
  · exact RunsTo.atEntry zero

/-- A move queues only states that stand for runs of the graph. -/
theorem move
    (realized : run.Realized problem.graph) (tidy : run.Tidy problem)
    (wellNumbered : problem.graph.WellNumbered)
    (popped : run.worklist.pop? = some (batch, rest))
    {State : Type} {solver : Backend State} {before : Dialogue State}
    {next : Run}
    (moves : problem.Moves solver before (run.leaving rest) batch next) :
    next.Realized problem.graph := by
  intro state member valuation satisfied arrives
  rcases moves.mem_waiting member with old | ⟨_, leaves, edge, inside, rfl⟩
  · exact realized state (Tidy.mem_waiting_of_rest popped old) valuation
      satisfied arrives
  · rcases arrives _ rfl with ⟨present, holds⟩
    have runs := realized.runsTo_of_marker tidy popped satisfied present
    exact runs.depart wellNumbered leaves inside holds

end Run.Realized

/-- Every state that a search queues stands for runs of the graph. -/
theorem Problem.Searched.realized
    {State : Type} {problem : Problem} {solver : Backend State} {run : Run}
    (searched : problem.Searched solver run)
    (wellNumbered : problem.graph.WellNumbered) :
    run.Realized problem.graph := by
  induction searched with
  | start seeded => exact .start seeded
  | move searched popped moves induction =>
      exact induction.move searched.tidy wellNumbered popped moves

/--
If a search with a solver that is honest about models finds a witness, the
witness gives a value to each parameter in order, and the graph has a run that
starts with these values, and some values of the other variables, and visits
a target.
-/
theorem exists_run_of_reachable
    {State : Type} (solver : Backend State) (honest : HonestSat solver)
    (graph : FlowGraph) (wellNumbered : graph.WellNumbered)
    (targets : List BlockId) (maxVisits : Nat)
    (before : Dialogue State)
    (witness : Witness) (statistics : Statistics)
    (found : (explore solver graph targets maxVisits before).1 =
      .ok ⟨.reachable witness, statistics⟩) :
    witness.values.map Prod.fst = graph.parameters ∧
      ∃ environment : Environment,
        (∀ entry ∈ witness.values,
          environment.read entry.1 = some entry.2.value) ∧
        ∃ steps current,
          graph.after steps (graph.atEntry environment) = some current ∧
            current.block ∈ targets := by
  rcases explore_ends solver graph targets maxVisits before with
    ⟨foreign, ended⟩ | ⟨_, ⟨_, _, ended⟩ | ⟨_, ends⟩⟩
  · simp [found] at ended
  · simp [found] at ended
  rw [found] at ends
  rcases ends.ok_cases with ⟨last, _, _, exhausted⟩ |
    ⟨last, batch, rest, middle, reached, searched, popped, finds, same⟩
  · rw [Run.exhausted] at exhausted
    split at exhausted <;> simp at exhausted
  · simp only [Outcome.reachable.injEq] at same
    subst reached
    rcases finds.asked with ⟨later, asked⟩
    have tidy := searched.tidy
    rcases exists_model_of_reached honest (tidy.isCondition_asked popped) asked with
      ⟨model, satisfied, names, values⟩
    rcases (searched.realized wellNumbered).runsTo_of_marker tidy popped
        (fun term member => satisfied term (List.mem_append_left _ member))
        (satisfied _ (by simp [Run.marker, Run.leaving])) with
      ⟨steps, environment, run, _⟩
    exact ⟨names, environmentOf model .empty, values, steps, _, run,
      finds.target⟩

/-- The parameter of the loop below. -/
def counter : Variable := ⟨0, "counter", .integer false 2⟩

/-- The value after the parameter's, modulo four. -/
def following : Variable := ⟨1, "following", .integer false 2⟩

/-- A loop that counts up from the parameter and is left where it wraps. -/
def wrapAround : FlowGraph where
  id := 0
  parameters := [counter]
  returns := []
  inner := [some (.assign following
      (.binary .add (.var counter) (.constant (.unsigned 1 2)))),
    some (.jump (.binary .equal (.var following) (.constant (.unsigned 0 2)))),
    some (.assign counter (.var following))]
  edges := [⟨0, 2, .unconditional⟩, ⟨2, 3, .unconditional⟩, ⟨3, 1, .onTrue⟩,
    ⟨3, 4, .onFalse⟩, ⟨4, 2, .unconditional⟩]

/-- With one visit to a block, the search finds the value that wraps. -/
theorem wrapAround_run_of_reachable :
    (explore exhaustive wrapAround [wrapAround.exit] 1 (.start .none)).1 =
        .ok ⟨.reachable ⟨[(counter, .unsigned 3 2)]⟩,
          ⟨0, 5, 4, 4, 1, 0, 0⟩⟩ ∧
      ∃ environment : Environment,
        environment.read counter = some (Constant.unsigned 3 2).value ∧
        ∃ steps current,
          wrapAround.after steps (wrapAround.atEntry environment) =
              some current ∧
            current.block ∈ [wrapAround.exit] := by
  have found : (explore exhaustive wrapAround [wrapAround.exit] 1
      (.start .none)).1 = .ok ⟨.reachable ⟨[(counter, .unsigned 3 2)]⟩,
        ⟨0, 5, 4, 4, 1, 0, 0⟩⟩ := by decide +kernel
  rcases exists_run_of_reachable exhaustive exact_exhaustive.honest wrapAround
      (by decide +kernel) _ _ _ _ _ found with
    ⟨_, environment, values, run⟩
  exact ⟨found, environment, values _ List.mem_cons_self, run⟩

end FlowWitness.Exploration
