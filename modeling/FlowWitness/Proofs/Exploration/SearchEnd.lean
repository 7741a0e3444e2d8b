import FlowWitness.Proofs.Exploration.SearchOrder
import Mathlib.Algebra.BigOperators.Group.Finset.Basic
import Mathlib.Algebra.Group.Action.Defs
import Mathlib.Algebra.Order.BigOperators.Group.Finset

/-!
# How a search ends

A search ends because nothing waits any more, because a witness is found, or
because it fails, and it fails only by a contract violation or in a question
to the solver.  It never ends for want of rounds: a move that merges uses up
one of the visits that the bound allows and queues at most two batches, and
every other move takes a batch and queues none.
-/

namespace FlowWitness.Exploration

open FlowWitness.Graph
open FlowWitness.Program
open FlowWitness.Smt
open FlowWitness.Solver

/-! ## Rounds -/

/-- Blocks that each occur a bounded number of times are not too many. -/
theorem length_le_of_count_le
    {blocks ranked : List BlockId} {bound : Nat}
    (counted : ∀ block, blocks.count block ≤ bound)
    (inside : ∀ block ∈ blocks, block ∈ ranked) :
    blocks.length ≤ bound * ranked.length := by
  have subset : blocks.toFinset ⊆ ranked.toFinset := by
    intro block member
    rw [List.mem_toFinset] at member ⊢
    exact inside block member
  have few : blocks.toFinset.card ≤ ranked.length :=
    (Finset.card_le_card subset).trans (List.toFinset_card_le _)
  calc
    blocks.length = ∑ block ∈ blocks.toFinset, blocks.count block :=
      (List.sum_toFinset_count_eq_length _).symm
    _ ≤ blocks.toFinset.card • bound :=
      Finset.sum_le_card_nsmul _ _ _ (fun block _ => counted block)
    _ = bound * blocks.toFinset.card := by
      rw [smul_eq_mul, Nat.mul_comm]
    _ ≤ bound * ranked.length := Nat.mul_le_mul_left _ few

/-- There are no more merges than the bound allows. -/
theorem Run.Tidy.length_merged_le
    {problem : Problem} {run : Run} (tidy : run.Tidy problem) :
    run.merged.length ≤ problem.maxVisits * problem.ranked.length :=
  length_le_of_count_le tidy.counted tidy.ranked

namespace Problem

/--
The rounds suffice for the batches that wait and for those that the merges
still to come can queue.
-/
def Affords (problem : Problem) (rounds : Nat) (run : Run) : Prop :=
  run.worklist.batches.length +
      2 * (problem.maxVisits * problem.ranked.length) ≤
    rounds + 2 * run.merged.length

variable {State : Type} {problem : Problem} {solver : Backend State}
  {run next : Run} {rounds : Nat}

theorem Moves.affords
    {batch : Batch PathState} {rest : Worklist PathState}
    {before : Dialogue State}
    (popped : run.worklist.pop? = some (batch, rest))
    (moves : problem.Moves solver before (run.leaving rest) batch next)
    (affords : problem.Affords (rounds + 1) run) :
    problem.Affords rounds next := by
  have taken : run.worklist.batches.length = rest.batches.length + 1 := by
    rw [Worklist.pop?_eq_some popped, List.length_cons]
  unfold Affords at affords ⊢
  rcases moves.effect with ⟨_, rfl⟩ | ⟨_, merged, _, edges, leaves, worklist⟩
  · change rest.batches.length + _ ≤ rounds + 2 * run.merged.length
    omega
  · have few : edges.length ≤ 2 := by
      rcases leaves with rfl | leaves
      · simp
      · exact leaves.length_le_two
    have queued : next.worklist.batches.length ≤
        rest.batches.length + edges.length := by
      rw [worklist]
      exact length_queueAll_le edges
    have counted : next.merged.length = run.merged.length + 1 := by
      rw [merged]
      rfl
    omega

theorem affords_seed
    {statistics : Statistics} (seeded : problem.seed statistics = .ok run) :
    problem.Affords problem.maxRounds run := by
  rcases seed_eq_ok seeded with ⟨versions, _, _, rfl⟩
  have one : (problem.enqueue ⟨.empty, [], statistics, 0⟩
      (.seed problem.graph.entry versions)).worklist.batches.length ≤ 0 + 1 :=
    length_enqueue_le _
  unfold Affords maxRounds
  rw [Nat.mul_assoc]
  omega

/-! ## Ends -/

/-- How a search can end. -/
inductive Ends (problem : Problem) (solver : Backend State) :
    Except Failure Report → Prop where
  | exhausted {last : Run}
      (searched : problem.Searched solver last)
      (empty : last.worklist.batches = []) :
      Ends problem solver (.ok last.exhausted)
  | found {last : Run} {batch : Batch PathState} {rest : Worklist PathState}
      {before : Dialogue State} {witness : Witness} {statistics : Statistics}
      (searched : problem.Searched solver last)
      (popped : last.worklist.pop? = some (batch, rest))
      (finds : problem.Finds solver before (last.leaving rest) batch witness) :
      Ends problem solver (.ok ⟨.reachable witness, statistics⟩)
  | violated (violation : ContractViolation) :
      Ends problem solver (.error (.contract violation))
  | failed {last : Run} {batch : Batch PathState} {rest : Worklist PathState}
      {before after : Dialogue State} {failure : Failure}
      (searched : problem.Searched solver last)
      (popped : last.worklist.pop? = some (batch, rest))
      (asked : problem.ask solver (last.leaving rest) batch before =
        (.error failure, after)) :
      Ends problem solver (.error failure)

/-- A search with a report has run out of states, or has a witness. -/
theorem Ends.ok_cases
    {report : Report} (ends : problem.Ends solver (.ok report)) :
    (∃ last, problem.Searched solver last ∧ last.worklist.batches = [] ∧
      report = last.exhausted) ∨
    ∃ last batch rest before witness, problem.Searched solver last ∧
      last.worklist.pop? = some (batch, rest) ∧
      problem.Finds solver before (last.leaving rest) batch witness ∧
      report.outcome = .reachable witness := by
  cases ends with
  | exhausted searched empty => exact Or.inl ⟨_, searched, empty, rfl⟩
  | found searched popped finds =>
      exact Or.inr ⟨_, _, _, _, _, searched, popped, finds, rfl⟩

/-- With rounds enough, the loop ends in one of these ways. -/
theorem drain_ends
    (searched : problem.Searched solver run)
    (affords : problem.Affords rounds run) (dialogue : Dialogue State) :
    problem.Ends solver (problem.drain solver rounds run dialogue).1 := by
  induction rounds generalizing run dialogue with
  | zero =>
      -- All merges that the bound allows have been made, and paid for.
      have merges := searched.tidy.length_merged_le
      have empty : run.worklist.batches = [] := by
        unfold Affords at affords
        exact List.length_eq_zero_iff.mp (by omega)
      exact .exhausted searched empty
  | succ rounds induction =>
      rw [drain]
      cases popped : run.worklist.pop? with
      | none => exact .exhausted searched (Worklist.pop?_eq_none popped)
      | some taken =>
          rcases taken with ⟨batch, rest⟩
          simp only [Conversation.andThen]
          cases stepped : problem.step solver (run.leaving rest) batch dialogue with
          | mk outcome middle =>
              change problem.step solver { run with worklist := rest } batch
                dialogue = _ at stepped
              rw [stepped]
              cases outcome with
              | error failure =>
                  rcases step_eq_error stepped with ⟨violation, rfl⟩ | asked
                  · exact .violated violation
                  · exact .failed searched popped asked
              | ok progress =>
                  rcases step_eq_ok stepped with ⟨next, rfl, moves⟩ |
                    ⟨witness, statistics, rfl, finds⟩
                  · exact induction (.move searched popped moves)
                      (moves.affords popped affords) middle
                  · exact .found searched popped finds

/-! ## The whole search -/

/-- The problem that a search for targets in a graph solves. -/
def ofTargets (graph : FlowGraph) (targets : List BlockId) (maxVisits : Nat) :
    Problem :=
  ⟨graph, targets, graph.rankedBlocks (graph.blocksReaching targets), maxVisits⟩

theorem search_ends (statistics : Statistics) (dialogue : Dialogue State) :
    (problem.graph.entry ∉ problem.ranked ∧
      (problem.search solver statistics dialogue).1 =
        .ok ⟨.unreachable, statistics⟩) ∨
    (problem.graph.entry ∈ problem.ranked ∧
      problem.Ends solver (problem.search solver statistics dialogue).1) := by
  unfold search
  split
  · next contained =>
      refine Or.inr ⟨by simpa using contained, ?_⟩
      cases seeded : problem.seed statistics with
      | error violation => exact .violated violation
      | ok run =>
          exact drain_ends (.start seeded) (affords_seed seeded) dialogue
  · next notContained => exact Or.inl ⟨by simpa using notContained, rfl⟩

end Problem

/--
A search fails at once on a target of another graph; otherwise it says at
once that nothing is reachable, if the entry is not ranked, or ends as the
loop ends.
-/
theorem explore_ends
    {State : Type} (solver : Backend State) (graph : FlowGraph)
    (targets : List BlockId) (maxVisits : Nat) (dialogue : Dialogue State) :
    (∃ foreign, (explore solver graph targets maxVisits dialogue).1 =
      .error (.contract (.foreignTarget foreign))) ∨
    (∀ target ∈ targets, graph.contains target = true) ∧
      ((graph.entry ∉ graph.rankedBlocks (graph.blocksReaching targets) ∧
        ∃ statistics, (explore solver graph targets maxVisits dialogue).1 =
          .ok ⟨.unreachable, statistics⟩) ∨
      (graph.entry ∈ graph.rankedBlocks (graph.blocksReaching targets) ∧
        (Problem.ofTargets graph targets maxVisits).Ends solver
          (explore solver graph targets maxVisits dialogue).1)) := by
  unfold explore Problem.prepare
  cases foreign : targets.find? (fun target => !graph.contains target) with
  | some block => exact Or.inl ⟨block, rfl⟩
  | none =>
      refine Or.inr ⟨?_, ?_⟩
      · intro target member
        have own := List.find?_eq_none.mp foreign target member
        simpa using own
      · rcases Problem.search_ends _ dialogue with ⟨outside, ended⟩ | ends
        · exact Or.inl ⟨outside, _, ended⟩
        · exact Or.inr ends

end FlowWitness.Exploration
