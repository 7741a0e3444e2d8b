import FlowWitness.Proofs.Exploration.SearchSteps

/-!
# The order that a search keeps

Every searched run is tidy: no block is merged more often than the bound
allows, the states of a batch wait at one ranked block, their stacks share
their lower parts, and each of them is a proper state with the edge it came
along.  Only the seed has no edge, and it never waits beside another state.

Since every merge uses up one of the visits and queues at most two batches,
the loop has always run out of batches before it runs out of rounds.
-/

namespace FlowWitness.Exploration

open FlowWitness.Graph
open FlowWitness.Program
open FlowWitness.Smt
open FlowWitness.Solver

/-! ## Queueing the ways out -/

/-- A batch with at least one state, all at the ranked block of the batch. -/
structure Filed (ranked : List BlockId) (batch : Batch PathState) : Prop where
  placed : rankOf? ranked batch.block = some batch.rank
  occupied : batch.states ≠ []
  gathered : ∀ state ∈ batch.states, state.block = batch.block

namespace Problem

variable {problem : Problem} {run : Run}

theorem mem_waiting_enqueue
    {state other : PathState}
    (member : other ∈ (problem.enqueue run state).waiting) :
    other ∈ run.waiting ∨ other = state := by
  unfold enqueue at member
  split at member
  · rcases Worklist.mem_waiting_push.mp member with same | old
    · exact Or.inr same
    · exact Or.inl old
  · exact Or.inl member

theorem waiting_subset_enqueue
    {state other : PathState} (member : other ∈ run.waiting) :
    other ∈ (problem.enqueue run state).waiting := by
  unfold enqueue
  split
  · exact Worklist.mem_waiting_push.mpr (Or.inr member)
  · exact member

theorem state_mem_enqueue
    {state : PathState} (ranked : state.block ∈ problem.ranked) :
    state ∈ (problem.enqueue run state).waiting := by
  rcases exists_rankOf? ranked with ⟨rank, found⟩
  unfold enqueue
  rw [found]
  exact Worklist.mem_waiting_push.mpr (Or.inl rfl)

theorem filed_enqueue
    (filed : ∀ batch ∈ run.worklist.batches, Filed problem.ranked batch)
    (state : PathState) :
    ∀ batch ∈ (problem.enqueue run state).worklist.batches,
      Filed problem.ranked batch := by
  intro batch member
  unfold enqueue at member
  split at member
  · next rank found =>
      rcases Worklist.mem_enqueue member with
        old | rfl | ⟨old, inside, same, rfl⟩
      · exact filed batch old
      · exact ⟨found, by simp, by simp⟩
      · have placed := (filed old inside).placed
        rw [same] at placed
        have blocks := rankOf?_injective placed found
        refine ⟨(filed old inside).placed, by simp, ?_⟩
        intro other otherMember
        simp only [List.mem_append, List.mem_singleton] at otherMember
        rcases otherMember with before | rfl
        · exact (filed old inside).gathered other before
        · exact blocks.symm
  · exact filed batch member

@[simp]
theorem enqueue_merged (state : PathState) :
    (problem.enqueue run state).merged = run.merged := by
  unfold enqueue
  split <;> rfl

@[simp]
theorem enqueue_supply (state : PathState) :
    (problem.enqueue run state).supply = run.supply := by
  unfold enqueue
  split <;> rfl

@[simp]
theorem enqueue_statistics (state : PathState) :
    (problem.enqueue run state).statistics = run.statistics := by
  unfold enqueue
  split <;> rfl

theorem length_enqueue_le (state : PathState) :
    (problem.enqueue run state).worklist.batches.length ≤
      run.worklist.batches.length + 1 := by
  unfold enqueue
  split
  · exact Worklist.length_enqueue_le _ _ _ _
  · exact Nat.le_succ _

variable {source : PathState} {marker : Term}

theorem mem_waiting_queueAll
    {edges : List Departure} {other : PathState}
    (member : other ∈ (problem.queueAll source marker edges run).waiting) :
    other ∈ run.waiting ∨ ∃ edge ∈ edges, other = edge.state source marker := by
  induction edges generalizing run with
  | nil => exact Or.inl member
  | cons edge rest induction =>
      rcases induction member with queued | ⟨later, inside, same⟩
      · rcases mem_waiting_enqueue queued with old | same
        · exact Or.inl old
        · exact Or.inr ⟨edge, List.mem_cons_self, same⟩
      · exact Or.inr ⟨later, List.mem_cons_of_mem _ inside, same⟩

theorem waiting_subset_queueAll
    (edges : List Departure) {other : PathState}
    (member : other ∈ run.waiting) :
    other ∈ (problem.queueAll source marker edges run).waiting := by
  induction edges generalizing run with
  | nil => exact member
  | cons edge rest induction => exact induction (waiting_subset_enqueue member)

theorem state_mem_queueAll
    {edges : List Departure} {edge : Departure} (member : edge ∈ edges)
    (ranked : edge.next ∈ problem.ranked) :
    edge.state source marker ∈
      (problem.queueAll source marker edges run).waiting := by
  induction edges generalizing run with
  | nil => simp at member
  | cons first rest induction =>
      rcases List.mem_cons.mp member with rfl | later
      · exact waiting_subset_queueAll rest (state_mem_enqueue ranked)
      · exact induction later

theorem filed_queueAll
    (edges : List Departure)
    (filed : ∀ batch ∈ run.worklist.batches, Filed problem.ranked batch) :
    ∀ batch ∈ (problem.queueAll source marker edges run).worklist.batches,
      Filed problem.ranked batch := by
  induction edges generalizing run with
  | nil => exact filed
  | cons edge rest induction => exact induction (filed_enqueue filed _)

@[simp]
theorem queueAll_merged (edges : List Departure) :
    (problem.queueAll source marker edges run).merged = run.merged := by
  induction edges generalizing run with
  | nil => rfl
  | cons edge rest induction => exact induction.trans (enqueue_merged _)

@[simp]
theorem queueAll_supply (edges : List Departure) :
    (problem.queueAll source marker edges run).supply = run.supply := by
  induction edges generalizing run with
  | nil => rfl
  | cons edge rest induction => exact induction.trans (enqueue_supply _)

@[simp]
theorem queueAll_statistics (edges : List Departure) :
    (problem.queueAll source marker edges run).statistics =
      run.statistics := by
  induction edges generalizing run with
  | nil => rfl
  | cons edge rest induction => exact induction.trans (enqueue_statistics _)

theorem length_queueAll_le (edges : List Departure) :
    (problem.queueAll source marker edges run).worklist.batches.length ≤
      run.worklist.batches.length + edges.length := by
  induction edges generalizing run with
  | nil => exact Nat.le_refl _
  | cons edge rest induction =>
      calc
        (problem.queueAll source marker rest (problem.enqueue run
            (edge.state source marker))).worklist.batches.length ≤
            (problem.enqueue run
              (edge.state source marker)).worklist.batches.length +
              rest.length := induction
        _ ≤ run.worklist.batches.length + 1 + rest.length :=
          Nat.add_le_add_right (length_enqueue_le _) _
        _ = run.worklist.batches.length + (edge :: rest).length := by
          simp only [List.length_cons]
          omega

theorem enqueue_worklist_congr
    {other : Run} (same : run.worklist = other.worklist) (state : PathState) :
    (problem.enqueue run state).worklist =
      (problem.enqueue other state).worklist := by
  unfold enqueue
  split
  · simp only [same]
  · exact same

/-- Where states are queued does not depend on the counters. -/
theorem queueAll_worklist_congr
    {other : Run} (same : run.worklist = other.worklist)
    (edges : List Departure) :
    (problem.queueAll source marker edges run).worklist =
      (problem.queueAll source marker edges other).worklist := by
  induction edges generalizing run other with
  | nil => exact same
  | cons edge rest induction =>
      exact induction (enqueue_worklist_congr same _)

/--
A move drops the batch, or merges it and queues ways out of its block, if any
at all.
-/
theorem Moves.effect
    {State : Type} {solver : Backend State} {before : Dialogue State}
    {batch : Batch PathState} {next : Run}
    (moves : problem.Moves solver before run batch next) :
    (problem.maxVisits ≤ run.merged.count batch.block ∧
      next = run.drop batch.states.length) ∨
    (run.merged.count batch.block < problem.maxVisits ∧
      next.merged = batch.block :: run.merged ∧
      next.supply = (run.afterMerge batch).supply ∧
      ∃ edges, (edges = [] ∨ Leaves problem.graph batch.block
          (mergedVersions batch.states) edges) ∧
        next.worklist = (problem.queueAll (run.mergedState batch)
          (run.marker batch.block) edges (run.afterMerge batch)).worklist) := by
  cases moves with
  | dropped spent => exact Or.inl ⟨spent, rfl⟩
  | passed fresh inner leaves =>
      exact Or.inr ⟨fresh, by simp [Run.afterMerge, Run.countMerge],
        by simp, _, Or.inr leaves, rfl⟩
  | refuted fresh target asked =>
      exact Or.inr ⟨fresh, rfl, rfl, [], Or.inl rfl, rfl⟩
  | undecided fresh target asked leaves =>
      exact Or.inr ⟨fresh,
        by simp [Run.afterMerge, Run.countMerge, Run.countCheck,
          Run.countUndecided],
        by simp [Run.countCheck, Run.countUndecided], _, Or.inr leaves,
        queueAll_worklist_congr (by rfl) _⟩

/-- What waits now waited before, or has just left the merged block. -/
theorem Moves.mem_waiting
    {State : Type} {solver : Backend State} {before : Dialogue State}
    {batch : Batch PathState} {next : Run}
    (moves : problem.Moves solver before run batch next)
    {state : PathState} (member : state ∈ next.waiting) :
    state ∈ run.waiting ∨ ∃ edges, Leaves problem.graph batch.block
        (mergedVersions batch.states) edges ∧
      ∃ edge ∈ edges,
        state = edge.state (run.mergedState batch) (run.marker batch.block) := by
  rcases moves.effect with ⟨_, rfl⟩ | ⟨_, _, _, edges, leaves, worklist⟩
  · exact Or.inl member
  · rw [Run.waiting, worklist] at member
    rcases mem_waiting_queueAll member with old | ⟨edge, inside, same⟩
    · exact Or.inl old
    · rcases leaves with rfl | leaves
      · simp at inside
      · exact Or.inr ⟨edges, leaves, edge, inside, same⟩

end Problem

/-! ## Tidy runs -/

/-- What all runs of a search have in common. -/
structure Run.Tidy (problem : Problem) (run : Run) : Prop where
  counted : ∀ block, run.merged.count block ≤ problem.maxVisits
  ranked : ∀ block ∈ run.merged, block ∈ problem.ranked
  filed : ∀ batch ∈ run.worklist.batches, Filed problem.ranked batch
  sharing : Sharing (run.waiting.map PathState.conditions) run.supply
  proper : ∀ state ∈ run.waiting, state.Proper
  entered :
    (∃ batch versions, run.worklist.batches = [batch] ∧
      batch.states = [.seed problem.graph.entry versions] ∧
      ∀ key, versions.get key = 0) ∨
    ∀ state ∈ run.waiting, state.pending.isSome = true

namespace Run.Tidy

variable {problem : Problem} {run : Run} {batch : Batch PathState}
  {rest : Worklist PathState}

theorem mem_waiting_of_batch
    (popped : run.worklist.pop? = some (batch, rest))
    {state : PathState} (member : state ∈ batch.states) :
    state ∈ run.waiting := by
  apply Worklist.mem_waiting.mpr
  exact ⟨batch, by simp [Worklist.pop?_eq_some popped], member⟩

theorem mem_waiting_of_rest
    (popped : run.worklist.pop? = some (batch, rest))
    {state : PathState} (member : state ∈ rest.waiting) :
    state ∈ run.waiting := by
  rcases Worklist.mem_waiting.mp member with ⟨other, inside, among⟩
  apply Worklist.mem_waiting.mpr
  exact ⟨other, by simp [Worklist.pop?_eq_some popped, inside], among⟩

theorem mem_batch_or_rest
    (popped : run.worklist.pop? = some (batch, rest))
    {state : PathState} (member : state ∈ run.waiting) :
    state ∈ batch.states ∨ state ∈ rest.waiting := by
  rcases Worklist.mem_waiting.mp member with ⟨other, inside, among⟩
  rw [Worklist.pop?_eq_some popped] at inside
  rcases List.mem_cons.mp inside with rfl | later
  · exact Or.inl among
  · exact Or.inr (Worklist.mem_waiting.mpr ⟨other, later, among⟩)

theorem filed_of_batch
    (tidy : run.Tidy problem)
    (popped : run.worklist.pop? = some (batch, rest)) :
    Filed problem.ranked batch := by
  apply tidy.filed
  rw [Worklist.pop?_eq_some popped]
  exact List.mem_cons_self

theorem filed_of_rest
    (tidy : run.Tidy problem)
    (popped : run.worklist.pop? = some (batch, rest)) :
    ∀ other ∈ rest.batches, Filed problem.ranked other := by
  intro other member
  apply tidy.filed
  rw [Worklist.pop?_eq_some popped]
  exact List.mem_cons_of_mem _ member

/-- A batch holds the seed alone, or states that all came along an edge. -/
theorem seed_or_edges
    (tidy : run.Tidy problem)
    (popped : run.worklist.pop? = some (batch, rest)) :
    (∃ versions, batch.states = [.seed problem.graph.entry versions] ∧
      ∀ key, versions.get key = 0) ∨
    ∀ state ∈ batch.states, state.pending.isSome = true := by
  rcases tidy.entered with ⟨only, versions, alone, seed, zero⟩ | edges
  · rw [Worklist.pop?_eq_some popped] at alone
    simp only [List.cons.injEq] at alone
    rcases alone with ⟨rfl, _⟩
    exact Or.inl ⟨versions, seed, zero⟩
  · exact Or.inr (fun state member =>
      edges state (mem_waiting_of_batch popped member))

/-- Whatever waits behind the first batch came along an edge. -/
theorem edges_of_rest
    (tidy : run.Tidy problem)
    (popped : run.worklist.pop? = some (batch, rest))
    {state : PathState} (member : state ∈ rest.waiting) :
    state.pending.isSome = true := by
  rcases tidy.entered with ⟨only, versions, alone, seed, zero⟩ | edges
  · rw [Worklist.pop?_eq_some popped] at alone
    simp only [List.cons.injEq] at alone
    simp [Worklist.waiting, alone.2] at member
  · exact edges state (mem_waiting_of_rest popped member)

/-- The conditions of a merged state, and how its stack shares. -/
theorem mergedState_conditions
    (tidy : run.Tidy problem)
    (popped : run.worklist.pop? = some (batch, rest)) :
    Sharing (((run.leaving rest).mergedState batch).conditions ::
          run.waiting.map PathState.conditions)
        ((run.leaving rest).afterMerge batch).supply ∧
      ∀ term,
        term ∈ ((run.leaving rest).mergedState batch).conditions.terms ↔
          (∃ state ∈ batch.states, term ∈ state.conditions.terms) ∨
            joinCondition? (run.marker batch.block)
              (mergedVersions batch.states) batch.states = some term :=
  mergeStates_conditions batch.block tidy.sharing (fun _ member =>
    List.mem_map_of_mem (mem_waiting_of_batch popped member))

theorem proper_of_batch
    (tidy : run.Tidy problem)
    (popped : run.worklist.pop? = some (batch, rest)) :
    ∀ state ∈ batch.states, state.Proper :=
  fun state member => tidy.proper state (mem_waiting_of_batch popped member)

theorem isCondition_mergedState
    (tidy : run.Tidy problem)
    (popped : run.worklist.pop? = some (batch, rest))
    {term : Term}
    (member : term ∈
      ((run.leaving rest).mergedState batch).conditions.terms) :
    term.IsCondition := by
  have proper := tidy.proper_of_batch popped
  rcases ((tidy.mergedState_conditions popped).2 term).mp member with
    ⟨state, inside, inTerms⟩ | joins
  · exact (proper state inside).conditions term inTerms
  · exact isCondition_join proper (isCondition_reachMarker _ _) joins

/-- Everything asserted in a question to the solver is a condition. -/
theorem isCondition_asked
    (tidy : run.Tidy problem)
    (popped : run.worklist.pop? = some (batch, rest)) :
    ∀ term ∈ ((run.leaving rest).mergedState batch).conditions.terms ++
      [run.marker batch.block], term.IsCondition := by
  intro term member
  rcases List.mem_append.mp member with inside | same
  · exact tidy.isCondition_mergedState popped inside
  · rw [List.mem_singleton.mp same]
    exact isCondition_reachMarker _ _

/-- A state on its way out of a merged block is proper. -/
theorem proper_departure
    (tidy : run.Tidy problem)
    (popped : run.worklist.pop? = some (batch, rest))
    {edges : List Departure}
    (leaves : Leaves problem.graph batch.block
      (mergedVersions batch.states) edges)
    {edge : Departure} (member : edge ∈ edges) :
    (edge.state ((run.leaving rest).mergedState batch)
      (run.marker batch.block)).Proper where
  conditions _ := tidy.isCondition_mergedState popped
  regular := leaves.regular
    (regular_mergedVersions (tidy.proper_of_batch popped)) member
  source := by
    intro pending same
    simp only [Departure.state, Option.some.injEq] at same
    subst pending
    exact isCondition_reachMarker _ _
  taken := by
    intro pending same
    simp only [Departure.state, Option.some.injEq] at same
    subst pending
    exact leaves.isCondition member
  versions := by
    intro pending same
    simp only [Departure.state, Option.some.injEq] at same
    subst pending
    rfl

theorem drop
    (tidy : run.Tidy problem)
    (popped : run.worklist.pop? = some (batch, rest)) (arrivals : Nat) :
    ((run.leaving rest).drop arrivals).Tidy problem where
  counted := tidy.counted
  ranked := tidy.ranked
  filed := tidy.filed_of_rest popped
  sharing := by
    apply tidy.sharing.of_subset
    intro stack member
    rcases List.mem_map.mp member with ⟨state, inside, rfl⟩
    exact List.mem_map_of_mem (mem_waiting_of_rest popped inside)
  proper state member := tidy.proper state (mem_waiting_of_rest popped member)
  entered := Or.inr (fun _ member => tidy.edges_of_rest popped member)

/-- A move keeps a run tidy. -/
theorem move
    (tidy : run.Tidy problem)
    (popped : run.worklist.pop? = some (batch, rest))
    {State : Type} {solver : Backend State} {before : Dialogue State}
    {next : Run}
    (moves : problem.Moves solver before (run.leaving rest) batch next) :
    next.Tidy problem := by
  rcases moves.effect with ⟨_, rfl⟩ |
    ⟨fresh, merged, supply, edges, _, worklist⟩
  · exact tidy.drop popped _
  have batchFiled := tidy.filed_of_batch popped
  constructor
  case counted =>
    intro block
    rw [merged, List.count_cons]
    split
    · next same =>
        rw [beq_iff_eq] at same
        subst block
        exact fresh
    · exact tidy.counted block
  case ranked =>
    intro block member
    rw [merged] at member
    rcases List.mem_cons.mp member with rfl | old
    · exact mem_of_rankOf? batchFiled.placed
    · exact tidy.ranked block old
  case filed =>
    rw [worklist]
    exact Problem.filed_queueAll edges (tidy.filed_of_rest popped)
  case sharing =>
    rw [supply]
    apply (tidy.mergedState_conditions popped).1.of_subset
    intro stack member
    rcases List.mem_map.mp member with ⟨state, inside, rfl⟩
    rcases moves.mem_waiting inside with old | ⟨_, _, _, _, rfl⟩
    · exact List.mem_cons_of_mem _
        (List.mem_map_of_mem (mem_waiting_of_rest popped old))
    · exact List.mem_cons_self
  case proper =>
    intro state member
    rcases moves.mem_waiting member with old | ⟨_, leaves, edge, inside, rfl⟩
    · exact tidy.proper state (mem_waiting_of_rest popped old)
    · exact tidy.proper_departure popped leaves inside
  case entered =>
    refine Or.inr (fun state member => ?_)
    rcases moves.mem_waiting member with old | ⟨_, _, _, _, rfl⟩
    · exact tidy.edges_of_rest popped old
    · rfl

end Run.Tidy

/-! ## The seed -/

theorem Problem.seedVersions_eq_ok
    {parameters : List Variable} {versions result : VersionMap}
    (seeded : Problem.seedVersions parameters versions = .ok result)
    (regular : versions.Regular) (zero : ∀ key, versions.get key = 0) :
    result.Regular ∧ ∀ key, result.get key = 0 := by
  induction parameters generalizing versions with
  | nil =>
      simp only [Problem.seedVersions, Except.ok.injEq] at seeded
      subst result
      exact ⟨regular, zero⟩
  | cons parameter rest induction =>
      simp only [Problem.seedVersions] at seeded
      split at seeded
      · next key found =>
          apply induction seeded
            (regular.insert (isGround_of_sortOf (keyOf_eq_ok found).2) 0)
          intro other
          by_cases same : other = key
          · rw [same, VersionMap.get_insert_self]
          · rw [VersionMap.get_insert_of_ne versions same]
            exact zero other
      · simp at seeded

/-- Only a parameter without symbols keeps a search from its seed. -/
theorem Problem.exists_seedVersions_iff
    {parameters : List Variable} {versions : VersionMap} :
    (∃ result, Problem.seedVersions parameters versions = .ok result) ↔
      ∀ parameter ∈ parameters, ∃ key, keyOf parameter = .ok key := by
  induction parameters generalizing versions with
  | nil => simp [Problem.seedVersions]
  | cons parameter rest induction =>
      rw [List.forall_mem_cons, Problem.seedVersions]
      cases named : keyOf parameter with
      | ok key => simp [induction]
      | error violation => simp

theorem Problem.exists_seed_iff
    {problem : Problem} {statistics : Statistics} :
    (∃ run, problem.seed statistics = .ok run) ↔
      ∀ parameter ∈ problem.graph.parameters,
        ∃ key, keyOf parameter = .ok key := by
  rw [← Problem.exists_seedVersions_iff, Problem.seed]
  split
  · next versions made => exact ⟨fun _ => ⟨versions, made⟩, fun _ => ⟨_, rfl⟩⟩
  · next violation refused => simp [refused]

/-- At the start the seed waits at the entry, if the entry is ranked. -/
theorem Problem.seed_eq_ok
    {problem : Problem} {statistics : Statistics} {run : Run}
    (seeded : problem.seed statistics = .ok run) :
    ∃ versions : VersionMap, versions.Regular ∧ (∀ key, versions.get key = 0) ∧
      run = problem.enqueue ⟨.empty, [], statistics, 0⟩
        (.seed problem.graph.entry versions) := by
  unfold Problem.seed at seeded
  split at seeded
  · next versions made =>
      rcases seedVersions_eq_ok made
          VersionMap.regular_empty VersionMap.get_empty with
        ⟨regular, zero⟩
      simp only [Except.ok.injEq] at seeded
      exact ⟨versions, regular, zero, seeded.symm⟩
  · simp at seeded

theorem Run.Tidy.start
    {problem : Problem} {statistics : Statistics} {run : Run}
    (seeded : problem.seed statistics = .ok run) :
    run.Tidy problem := by
  rcases Problem.seed_eq_ok seeded with ⟨versions, regular, zero, rfl⟩
  have waiting : ∀ state ∈ (problem.enqueue ⟨.empty, [], statistics, 0⟩
      (.seed problem.graph.entry versions)).waiting,
      state = .seed problem.graph.entry versions := by
    intro state member
    rcases Problem.mem_waiting_enqueue member with old | same
    · simp [Run.waiting, Worklist.waiting, Worklist.empty] at old
    · exact same
  constructor
  case counted => simp
  case ranked => simp
  case filed =>
    apply Problem.filed_enqueue
    simp [Worklist.empty]
  case sharing =>
    have none : Sharing [] 0 := ⟨by simp, by simp⟩
    rw [Problem.enqueue_supply]
    apply none.cons_empty.of_subset
    intro stack member
    rcases List.mem_map.mp member with ⟨state, inside, rfl⟩
    rw [waiting state inside]
    exact List.mem_cons_self
  case proper =>
    intro state member
    rw [waiting state member]
    exact ⟨by simp [PathState.seed, ConditionStack.terms, ConditionStack.empty],
      regular, by simp [PathState.seed], by simp [PathState.seed],
      by simp [PathState.seed]⟩
  case entered =>
    unfold Problem.enqueue
    split
    · exact Or.inl ⟨_, versions, rfl, rfl, zero⟩
    · exact Or.inr (by simp [Run.waiting, Worklist.waiting, Worklist.empty])

/-- Every run of a search is tidy. -/
theorem Problem.Searched.tidy
    {State : Type} {problem : Problem} {solver : Backend State} {run : Run}
    (searched : problem.Searched solver run) :
    run.Tidy problem := by
  induction searched with
  | start seeded => exact .start seeded
  | move _ popped moves induction => exact induction.move popped moves

end FlowWitness.Exploration
