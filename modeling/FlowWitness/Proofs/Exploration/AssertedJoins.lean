import FlowWitness.Proofs.Exploration.SearchLog
import Mathlib.Data.List.Dedup

/-!
# What is asserted about a target

A question about a target asserts the marker of the visit and the conditions
of the merged state.  Each of these is the join of some merge made so far in
the search, so there are no more distinct ones than there were merges.

The same join can be asserted several times over.  Merging tells conditions
apart by their nodes, and it pushes what a stack lacks as new nodes, so once
two stacks have taken over a join from each other, a later merge of the two no
longer sees that they share it.
-/

namespace FlowWitness.Exploration

open FlowWitness.Graph
open FlowWitness.Program
open FlowWitness.Smt
open FlowWitness.Solver

/-- What is asserted about a batch at a target. -/
def Run.asserted (run : Run) (batch : Batch PathState) : List Term :=
  (run.mergedState batch).conditions.terms ++ [run.marker batch.block]

namespace Problem

/-- The join of a batch, if the search merges it and it came along edges. -/
def join? (problem : Problem) (run : Run) (batch : Batch PathState) :
    Option Term :=
  if run.merged.count batch.block < problem.maxVisits then
    joinCondition? (run.marker batch.block) (mergedVersions batch.states)
      batch.states
  else none

/-- The joins of the merges of a search. -/
def joins (problem : Problem) (log : List Turn) : List Term :=
  log.filterMap (fun turn => problem.join? turn.run turn.batch)

variable {State : Type} {problem : Problem} {solver : Backend State}
  {statistics : Statistics} {start : State} {log : List Turn}
  {run : Run} {after : Dialogue State} {batch : Batch PathState}
  {rest : Worklist PathState}

/-- The conditions of a merged state are its own join and earlier ones. -/
theorem mem_conditions_mergedState
    (tidy : run.Tidy problem)
    (known : ∀ state ∈ run.waiting, ∀ term ∈ state.conditions.terms,
      term ∈ problem.joins log)
    (popped : run.worklist.pop? = some (batch, rest))
    (fresh : run.merged.count batch.block < problem.maxVisits)
    {term : Term}
    (member : term ∈
      ((run.leaving rest).mergedState batch).conditions.terms) :
    problem.join? (run.leaving rest) batch = some term ∨
      term ∈ problem.joins log := by
  rcases ((tidy.mergedState_conditions popped).2 term).mp member with
    ⟨state, inside, held⟩ | joined
  · exact Or.inr (known state
      (Run.Tidy.mem_waiting_of_batch popped inside) term held)
  · rw [join?, if_pos (by exact fresh)]
    exact Or.inl joined

/-- Every condition of a state that waits is the join of some merge. -/
theorem Turns.mem_joins
    (turns : problem.Turns solver statistics start log run after) :
    ∀ state ∈ run.waiting, ∀ term ∈ state.conditions.terms,
      term ∈ problem.joins log := by
  induction turns with
  | seeded made =>
      rcases seed_eq_ok made with ⟨versions, _, _, rfl⟩
      intro state member
      rcases mem_waiting_enqueue member with old | rfl
      · simp [Run.waiting, Worklist.waiting, Worklist.empty] at old
      · simp [PathState.seed, ConditionStack.terms, ConditionStack.empty]
  | @turn log run next batch rest before after ways earlier popped stepped
      takes known =>
      intro state member term held
      have later : ∀ {term}, term ∈ problem.joins log →
          term ∈ problem.joins (⟨run.leaving rest, batch, ways⟩ :: log) := by
        intro term inside
        rw [joins, List.filterMap_cons]
        split
        · exact inside
        · exact List.mem_cons_of_mem _ inside
      rcases takes.dropped_or_merges with ⟨_, _, rfl⟩ | merges
      · exact later (known state
          (Run.Tidy.mem_waiting_of_rest popped member) term held)
      · rw [Run.waiting, merges.worklist] at member
        rcases mem_waiting_queueAll member with left | ⟨edge, _, rfl⟩
        · exact later (known state
            (Run.Tidy.mem_waiting_of_rest popped left) term held)
        · rcases mem_conditions_mergedState earlier.searched.tidy known popped
              merges.fresh held with own | old
          · rw [joins, List.filterMap_cons, own]
            exact List.mem_cons_self
          · exact later old

/-- Every merge has one join at most. -/
theorem Turns.length_joins_le
    (turns : problem.Turns solver statistics start log run after) :
    (problem.joins log).length ≤ run.merged.length := by
  induction turns with
  | seeded made => exact Nat.zero_le _
  | @turn log run next batch rest before after ways earlier popped stepped
      takes few =>
      rcases takes.dropped_or_merges with ⟨spent, _, rfl⟩ | merges
      · have unmerged : problem.join? (run.leaving rest) batch = none := by
          rw [join?, if_neg (Nat.not_lt.mpr spent)]
        rw [joins, List.filterMap_cons, unmerged]
        exact few
      · rw [merges.merged, List.length_cons]
        rw [joins, List.filterMap_cons]
        split
        · exact Nat.le_succ_of_le few
        · exact Nat.succ_le_succ few

end Problem

/--
Whatever is asserted about a batch is the marker of its visit, its own join or
the join of an earlier merge.  Apart from repetitions there is at most one
term more than merges, the one at hand included.
-/
theorem asserted_terms_are_joins
    {State : Type} (solver : Backend State) (start : State)
    (problem : Problem) (statistics : Statistics)
    {log : List Turn} {run : Run} {dialogue : Dialogue State}
    (turns : problem.Turns solver statistics start log run dialogue)
    {batch : Batch PathState} {rest : Worklist PathState}
    (popped : run.worklist.pop? = some (batch, rest))
    (fresh : run.merged.count batch.block < problem.maxVisits) :
    (∀ term ∈ (run.leaving rest).asserted batch,
      term = run.marker batch.block ∨
        problem.join? (run.leaving rest) batch = some term ∨
        term ∈ problem.joins log) ∧
    ((run.leaving rest).asserted batch).dedup.length ≤
      1 + (run.merged.length + 1) := by
  have sources : ∀ term ∈ (run.leaving rest).asserted batch,
      term = run.marker batch.block ∨
        problem.join? (run.leaving rest) batch = some term ∨
        term ∈ problem.joins log := by
    intro term member
    rcases List.mem_append.mp member with condition | marker
    · exact Or.inr (Problem.mem_conditions_mergedState turns.searched.tidy
        turns.mem_joins popped fresh condition)
    · exact Or.inl (List.mem_singleton.mp marker)
  refine ⟨sources, ?_⟩
  have inside : ((run.leaving rest).asserted batch).dedup ⊆
      run.marker batch.block ::
        ((problem.join? (run.leaving rest) batch).toList ++
          problem.joins log) := by
    intro term member
    rcases sources term (List.mem_dedup.mp member) with same | own | old
    · simp [same]
    · simp [own]
    · simp [old]
  have few := (List.subperm_of_subset (List.nodup_dedup _) inside).length_le
  have one : (problem.join? (run.leaving rest) batch).toList.length ≤ 1 := by
    cases problem.join? (run.leaving rest) batch <;> simp
  have earlier := turns.length_joins_le
  simp only [List.length_cons, List.length_append] at few
  omega

/-- The parameter of the graph below. -/
def side : Variable := ⟨0, "side", .boolean⟩

/--
Three layers of two blocks, 3 and 4, 5 and 6, 7 and 8, where both blocks of a
layer lead to both blocks of the next, and the last two to the exit.
-/
def lattice : FlowGraph where
  id := 0
  parameters := [side]
  returns := []
  inner := [some (.jump (.var side)), some (.jump (.var side)),
    some (.jump (.var side)), some (.jump (.var side)),
    some (.jump (.var side)), none, none]
  edges := [⟨0, 2, .unconditional⟩, ⟨2, 3, .onTrue⟩, ⟨2, 4, .onFalse⟩,
    ⟨3, 5, .onTrue⟩, ⟨3, 6, .onFalse⟩, ⟨4, 5, .onTrue⟩, ⟨4, 6, .onFalse⟩,
    ⟨5, 7, .onTrue⟩, ⟨5, 8, .onFalse⟩, ⟨6, 7, .onTrue⟩, ⟨6, 8, .onFalse⟩,
    ⟨7, 1, .unconditional⟩, ⟨8, 1, .unconditional⟩]

/-- The question about the exit of the lattice asserts joins only. -/
theorem lattice_asserts_joins :
    ∃ statistics log run dialogue batch rest,
      (Problem.ofTargets lattice [lattice.exit] 1).Turns (oneVerdict .sat)
        statistics .none log run dialogue ∧
      run.worklist.pop? = some (batch, rest) ∧
      batch.block = lattice.exit ∧ run.merged.count batch.block < 1 ∧
      ((run.leaving rest).asserted batch).dedup.length ≤
        1 + (run.merged.length + 1) := by
  have reported : ((Problem.ofTargets lattice [lattice.exit] 1).search
      (oneVerdict .sat) ⟨0, 9, 0, 0, 0, 0, 0⟩ (.start .none)).1 =
        .ok ⟨.reachable ⟨[(side, .bool false)]⟩, ⟨0, 9, 9, 14, 1, 0, 0⟩⟩ := by
    decide +kernel
  rcases searched : (Problem.ofTargets lattice [lattice.exit] 1).search
    (oneVerdict .sat) ⟨0, 9, 0, 0, 0, 0, 0⟩ (.start .none) with
      ⟨outcome, dialogue⟩
  rw [searched] at reported
  change outcome = _ at reported
  subst outcome
  rcases Problem.search_concludes searched with same | concludes
  · simp at same
  · rcases concludes.of_reachable rfl with
      ⟨log, run, before, batch, rest, turns, popped, stepped⟩
    rcases Problem.step_eq_finished stepped with ⟨fresh, target, _⟩
    exact ⟨_, log, run, before, batch, rest, turns, popped,
      List.mem_singleton.mp target, fresh,
      (asserted_terms_are_joins _ _ _ _ turns popped fresh).2⟩

/--
At the only check of the search, after nine merges, the join of block 3 is
asserted three times and the whole list is longer than ten.
-/
theorem lattice_repeats_joins :
    (explore (oneVerdict .unsat) lattice [lattice.exit] 1 (.start .none)).1 =
        .ok ⟨.unreachable, ⟨0, 9, 9, 14, 1, 0, 0⟩⟩ ∧
      ∃ session ∈ (explore (oneVerdict .unsat) lattice [lattice.exit] 1
          (.start .none)).2.sessions,
        session.asserted.count (.implication (reachMarker (lattice.handle 3) 0)
          (.conjunction (reachMarker (lattice.handle 2) 0)
            (.constant "side!0@0" .bool))) = 3 ∧
        ¬ session.asserted.Nodup ∧ 1 + 9 < session.asserted.length := by
  exact ⟨by decide +kernel, by decide +kernel⟩

end FlowWitness.Exploration
