import FlowWitness.Proofs.Exploration.SearchLog
import FlowWitness.Proofs.Graph.Paths
import Mathlib.Data.List.Dedup

/-!
# Graphs without cycles are searched in one sweep

If the blocks between the entry and the targets form no cycle, the ranks are a
topological order, and a state that leaves a block waits at a higher rank.
The batches are therefore taken in strict order of rank, whatever the solver
answers: when a block comes up, all that can ever arrive at it has arrived,
and it never comes up again.

The invariant is that everything that waits is ranked above every turn taken
so far, and that what waits for a block is what the turns have sent to it.
-/

namespace FlowWitness.Exploration

open FlowWitness.Graph
open FlowWitness.Program
open FlowWitness.Smt
open FlowWitness.Solver
open FlowWitness.Solver.Conversation
open scoped List

/-! ## Ways out and edges -/

/-- There is one way out for each edge. -/
theorem Leaves.perm_successors
    {graph : FlowGraph} {block : BlockId} {versions : VersionMap}
    {edges : List Departure} (leaves : Leaves graph block versions edges) :
    (edges.map Departure.next).Perm (graph.successors block) := by
  cases leaves with
  | stop shape => exact FlowGraph.perm_successors_of_shape shape
  | pass _ shape => exact FlowGraph.perm_successors_of_shape shape
  | assign _ shape _ _ _ => exact FlowGraph.perm_successors_of_shape shape
  | branch _ shape _ _ => exact FlowGraph.perm_successors_of_shape shape

/-! ## Arrivals -/

/-- Those of the states that are on their way to the block. -/
def arrivals (block : BlockId) (states : List PathState) : List PathState :=
  states.filter (fun state => state.block == block)

theorem arrivals_append
    (block : BlockId) (first second : List PathState) :
    arrivals block (first ++ second) =
      arrivals block first ++ arrivals block second :=
  List.filter_append ..

theorem arrivals_eq_self
    {block : BlockId} {states : List PathState}
    (here : ∀ state ∈ states, state.block = block) :
    arrivals block states = states := by
  apply List.filter_eq_self.mpr
  simpa using here

theorem arrivals_eq_nil
    {block : BlockId} {states : List PathState}
    (elsewhere : ∀ state ∈ states, state.block ≠ block) :
    arrivals block states = [] := by
  apply List.filter_eq_nil_iff.mpr
  simpa using elsewhere

namespace Problem

variable {problem : Problem} {run next : Run}

theorem arrivals_enqueue
    {block : BlockId} (ranked : block ∈ problem.ranked) (state : PathState) :
    (arrivals block (problem.enqueue run state).waiting).Perm
      (arrivals block [state] ++ arrivals block run.waiting) := by
  rw [enqueue]
  split
  · rw [← arrivals_append]
    exact (Worklist.waiting_enqueue_perm _ _ _ _).filter _
  · next unranked =>
      have elsewhere : state.block ≠ block := by
        rintro rfl
        rcases exists_rankOf? ranked with ⟨rank, found⟩
        simp [found] at unranked
      have none : arrivals block [state] = [] :=
        arrivals_eq_nil (by simpa using elsewhere)
      rw [none]
      exact .refl _

theorem arrivals_queueAll
    {block : BlockId} (ranked : block ∈ problem.ranked)
    (source : PathState) (marker : Term) (edges : List Departure) :
    (arrivals block (problem.queueAll source marker edges run).waiting).Perm
      (arrivals block (edges.map (Departure.state source marker)) ++
        arrivals block run.waiting) := by
  induction edges generalizing run with
  | nil => exact .refl _
  | cons edge rest induction =>
      calc
        arrivals block (problem.queueAll source marker rest
            (problem.enqueue run (edge.state source marker))).waiting ~
            arrivals block (rest.map (Departure.state source marker)) ++
              arrivals block (problem.enqueue run
                (edge.state source marker)).waiting := induction
        _ ~ arrivals block (rest.map (Departure.state source marker)) ++
            (arrivals block [edge.state source marker] ++
              arrivals block run.waiting) :=
          (arrivals_enqueue ranked _).append_left _
        _ ~ arrivals block [edge.state source marker] ++
            arrivals block (rest.map (Departure.state source marker)) ++
              arrivals block run.waiting := by
          rw [← List.append_assoc]
          exact List.perm_append_comm.append_right _
        _ = _ := by
          rw [← arrivals_append]
          rfl

theorem inOrder_enqueue
    (state : PathState) (ordered : Worklist.InOrder run.worklist.batches) :
    Worklist.InOrder (problem.enqueue run state).worklist.batches := by
  rw [enqueue]
  split
  · exact ordered.enqueue _ _ _
  · exact ordered

theorem inOrder_queueAll
    (source : PathState) (marker : Term) (edges : List Departure)
    (ordered : Worklist.InOrder run.worklist.batches) :
    Worklist.InOrder
      (problem.queueAll source marker edges run).worklist.batches := by
  induction edges generalizing run with
  | nil => exact ordered
  | cons edge rest induction => exact induction (inOrder_enqueue _ ordered)

end Problem

/-- Distinct blocks hold no more targets than there are. -/
theorem countP_targets_le
    (targets : List BlockId) {blocks : List BlockId} (once : blocks.Nodup) :
    blocks.countP (fun block => block ∈ targets) ≤ targets.dedup.length := by
  rw [List.countP_eq_length_filter]
  apply List.Subperm.length_le
  apply List.subperm_of_subset (once.filter _)
  intro block member
  simpa using (List.mem_filter.mp member).2

/-! ## Sweeps -/

/-- What holds after the turns of a sweep. -/
structure Problem.Swept (problem : Problem) (log : List Turn) (run : Run) :
    Prop where
  rising : log.Pairwise (fun later earlier =>
    earlier.batch.rank < later.batch.rank)
  merged : run.merged = log.map Turn.block
  once : run.merged.Nodup
  settled : ∀ state ∈ run.waiting, state.block ∉ run.merged
  advanced : ∀ turn ∈ log, ∀ ways, turn.ways = some ways →
    Leaves problem.graph turn.block (mergedVersions turn.batch.states) ways ∧
      (ways.map Departure.next).Perm (problem.graph.successors turn.block)
  kept : run.statistics.droppedStates = 0
  checks : run.statistics.solverChecks ≤ problem.targets.dedup.length

/-- What holds of the batch that a sweep takes after some turns. -/
structure Problem.Due (problem : Problem) (log : List Turn)
    (batch : Batch PathState) : Prop where
  higher : ∀ turn ∈ log, turn.batch.rank < batch.rank
  unmerged : ∀ turn ∈ log, turn.block ≠ batch.block
  seeded : batch.block = problem.graph.entry → log = [] ∧
    ∃ versions,
      Problem.seedVersions problem.graph.parameters .empty = .ok versions ∧
      batch.states = [.seed problem.graph.entry versions]
  arrived : batch.block ≠ problem.graph.entry →
    batch.states.Perm (arrivals batch.block (log.flatMap Turn.sent))

/-- Every edge between ranked blocks goes to the higher rank. -/
def Problem.Rising (problem : Problem) : Prop :=
  ∀ {first second : BlockId} {lower upper : Nat},
    problem.graph.Leads first second →
    rankOf? problem.ranked first = some lower →
    rankOf? problem.ranked second = some upper → lower < upper

/-- The invariant of a sweep. -/
structure Problem.Sweeping (problem : Problem) (log : List Turn) (run : Run) :
    Prop where
  ordered : Worklist.InOrder run.worklist.batches
  placed : ∀ turn ∈ log,
    rankOf? problem.ranked turn.block = some turn.batch.rank
  rising : log.Pairwise (fun later earlier =>
    earlier.batch.rank < later.batch.rank)
  ahead : ∀ turn ∈ log, ∀ state ∈ run.waiting, ∀ rank,
    rankOf? problem.ranked state.block = some rank → turn.batch.rank < rank
  merged : run.merged = log.map Turn.block
  started : log = [] → ∃ versions,
    Problem.seedVersions problem.graph.parameters .empty = .ok versions ∧
    ∀ batch ∈ run.worklist.batches, batch.block = problem.graph.entry ∧
      batch.states = [.seed problem.graph.entry versions]
  entered : log ≠ [] → problem.graph.entry ∈ run.merged
  arrived : ∀ block ∈ problem.ranked, block ≠ problem.graph.entry →
    block ∉ run.merged →
    (arrivals block run.waiting).Perm
      (arrivals block (log.flatMap Turn.sent))
  advanced : ∀ turn ∈ log, ∀ ways, turn.ways = some ways →
    Leaves problem.graph turn.block (mergedVersions turn.batch.states) ways
  kept : run.statistics.droppedStates = 0
  counted : run.statistics.solverChecks =
    run.merged.countP (fun block => block ∈ problem.targets)

namespace Problem.Sweeping

variable {problem : Problem} {log : List Turn} {run next : Run}
  {batch : Batch PathState} {rest : Worklist PathState}
  {ways : Option (List Departure)}

theorem higher
    (sweeping : problem.Sweeping log run) (tidy : run.Tidy problem)
    (popped : run.worklist.pop? = some (batch, rest)) :
    ∀ turn ∈ log, turn.batch.rank < batch.rank := by
  intro turn member
  have filed := tidy.filed_of_batch popped
  rcases List.exists_mem_of_ne_nil _ filed.occupied with ⟨state, inside⟩
  apply sweeping.ahead turn member state
    (Run.Tidy.mem_waiting_of_batch popped inside)
  rw [filed.gathered state inside]
  exact filed.placed

theorem unmerged
    (sweeping : problem.Sweeping log run) (tidy : run.Tidy problem)
    (popped : run.worklist.pop? = some (batch, rest)) :
    ∀ turn ∈ log, turn.block ≠ batch.block := by
  intro turn member same
  have above := sweeping.higher tidy popped turn member
  have placed := sweeping.placed turn member
  rw [same, (tidy.filed_of_batch popped).placed, Option.some.injEq] at placed
  exact absurd above (by omega)

theorem not_mem_merged
    (sweeping : problem.Sweeping log run) (tidy : run.Tidy problem)
    (popped : run.worklist.pop? = some (batch, rest)) :
    batch.block ∉ run.merged := by
  rw [sweeping.merged]
  intro member
  rcases List.mem_map.mp member with ⟨turn, inside, same⟩
  exact sweeping.unmerged tidy popped turn inside same

/-- Whatever is left behind the first batch waits at a higher rank. -/
theorem above_of_rest
    (sweeping : problem.Sweeping log run) (tidy : run.Tidy problem)
    (popped : run.worklist.pop? = some (batch, rest))
    {state : PathState} (member : state ∈ rest.waiting) {rank : Nat}
    (placed : rankOf? problem.ranked state.block = some rank) :
    batch.rank < rank := by
  rcases Worklist.mem_waiting.mp member with ⟨other, inside, among⟩
  have filed := tidy.filed_of_rest popped other inside
  have same : other.rank = rank := by
    rw [filed.gathered state among, filed.placed, Option.some.injEq] at placed
    exact placed
  rw [← same]
  exact (sweeping.ordered.of_pop popped).1 other inside

theorem ne_of_rest
    (sweeping : problem.Sweeping log run) (tidy : run.Tidy problem)
    (popped : run.worklist.pop? = some (batch, rest))
    {state : PathState} (member : state ∈ rest.waiting) :
    state.block ≠ batch.block := by
  intro same
  have placed := (tidy.filed_of_batch popped).placed
  rw [← same] at placed
  exact absurd (sweeping.above_of_rest tidy popped member placed)
    (Nat.lt_irrefl _)

theorem due
    (sweeping : problem.Sweeping log run) (tidy : run.Tidy problem)
    (popped : run.worklist.pop? = some (batch, rest)) :
    problem.Due log batch where
  higher := sweeping.higher tidy popped
  unmerged := sweeping.unmerged tidy popped
  seeded := by
    intro entry
    have first : log = [] := by
      by_contra later
      have merged := sweeping.entered later
      rw [← entry] at merged
      exact sweeping.not_mem_merged tidy popped merged
    rcases sweeping.started first with ⟨versions, seeded, seeds⟩
    have seed := seeds batch (Worklist.mem_batches_of_pop popped)
    exact ⟨first, versions, seeded, seed.2⟩
  arrived := by
    intro inner
    have filed := tidy.filed_of_batch popped
    have arrived := sweeping.arrived batch.block
      (mem_of_rankOf? filed.placed) inner
      (sweeping.not_mem_merged tidy popped)
    rwa [Run.waiting, Worklist.waiting_of_pop popped, arrivals_append,
      arrivals_eq_self filed.gathered,
      arrivals_eq_nil (fun _ => sweeping.ne_of_rest tidy popped),
      List.append_nil] at arrived

/-- A turn carries the sweep on. -/
theorem turn
    (rising : problem.Rising) (visits : 1 ≤ problem.maxVisits)
    (sweeping : problem.Sweeping log run) (tidy : run.Tidy problem)
    (popped : run.worklist.pop? = some (batch, rest))
    (takes : problem.Takes (run.leaving rest) batch ways next) :
    problem.Sweeping (⟨run.leaving rest, batch, ways⟩ :: log) next := by
  have filed := tidy.filed_of_batch popped
  have higher := sweeping.higher tidy popped
  have fresh := sweeping.not_mem_merged tidy popped
  rcases takes.dropped_or_merges with ⟨spent, _, _⟩ | merges
  · have never : run.merged.count batch.block = 0 :=
      List.count_eq_zero.mpr fresh
    change problem.maxVisits ≤ run.merged.count batch.block at spent
    omega
  -- What waits now was left behind the batch, or has just been sent.
  have climbs : ∀ state ∈ next.waiting, ∀ rank,
      rankOf? problem.ranked state.block = some rank → batch.rank < rank := by
    intro state member rank placed
    rw [Run.waiting, merges.worklist] at member
    rcases mem_waiting_queueAll member with left | ⟨edge, inside, rfl⟩
    · exact sweeping.above_of_rest tidy popped left placed
    · cases ways with
      | none => simp at inside
      | some edges =>
          have leads := (merges.leaves edges rfl).perm_successors.mem_iff.mp
            (List.mem_map_of_mem inside)
          exact rising leads filed.placed placed
  constructor
  case ordered =>
    rw [merges.worklist]
    exact inOrder_queueAll _ _ _ (sweeping.ordered.of_pop popped).2
  case placed =>
    rw [List.forall_mem_cons]
    exact ⟨filed.placed, sweeping.placed⟩
  case rising => exact List.pairwise_cons.mpr ⟨higher, sweeping.rising⟩
  case ahead =>
    rw [List.forall_mem_cons]
    exact ⟨climbs, fun turn earlier state member rank placed =>
      Nat.lt_trans (higher turn earlier) (climbs state member rank placed)⟩
  case merged =>
    rw [merges.merged, List.map_cons, ← sweeping.merged]
    rfl
  case started => simp
  case entered =>
    intro _
    rw [merges.merged]
    by_cases first : log = []
    · rcases sweeping.started first with ⟨_, _, seeds⟩
      rw [(seeds batch (Worklist.mem_batches_of_pop popped)).1]
      exact List.mem_cons_self
    · exact List.mem_cons_of_mem _ (sweeping.entered first)
  case arrived =>
    intro block ranked inner unmerged
    rw [merges.merged, List.mem_cons, not_or] at unmerged
    have elsewhere : arrivals block batch.states = [] := by
      apply arrivals_eq_nil
      intro state member same
      rw [filed.gathered state member] at same
      exact unmerged.1 same.symm
    have before := sweeping.arrived block ranked inner unmerged.2
    rw [Run.waiting, Worklist.waiting_of_pop popped, arrivals_append,
      elsewhere, List.nil_append] at before
    rw [Run.waiting, merges.worklist, List.flatMap_cons, arrivals_append]
    exact (arrivals_queueAll ranked _ _ _).trans (before.append_left _)
  case advanced =>
    rw [List.forall_mem_cons]
    exact ⟨merges.leaves, sweeping.advanced⟩
  case kept => exact merges.dropped.trans sweeping.kept
  case counted =>
    rw [merges.checks, merges.merged, List.countP_cons]
    simp only [decide_eq_true_eq]
    exact congrArg (· + _) sweeping.counted

theorem seed
    {statistics : Statistics} (seeded : problem.seed statistics = .ok run)
    (kept : statistics.droppedStates = 0)
    (unasked : statistics.solverChecks = 0) :
    problem.Sweeping [] run := by
  rw [Problem.seed] at seeded
  cases made : seedVersions problem.graph.parameters .empty with
  | error violation => simp [made] at seeded
  | ok versions =>
      simp only [made, Except.ok.injEq] at seeded
      subst run
      constructor
      case ordered => exact inOrder_enqueue _ List.Pairwise.nil
      case placed => simp
      case rising => exact List.Pairwise.nil
      case ahead => simp
      case merged => exact enqueue_merged _
      case started =>
        intro _
        refine ⟨versions, made, ?_⟩
        rw [enqueue]
        split
        · simp [Worklist.push, Worklist.enqueue, Worklist.empty,
            PathState.seed]
        · simp [Worklist.empty]
      case entered => simp
      case arrived =>
        intro block ranked inner _
        have elsewhere : arrivals block
            [.seed problem.graph.entry versions] = [] :=
          arrivals_eq_nil (by simpa [PathState.seed] using inner.symm)
        have arrived : (arrivals block (problem.enqueue
            ⟨.empty, [], statistics, 0⟩
            (.seed problem.graph.entry versions)).waiting).Perm
              (arrivals block [.seed problem.graph.entry versions] ++ []) :=
          arrivals_enqueue ranked _
        rwa [elsewhere] at arrived
      case advanced => simp
      case kept => rwa [enqueue_statistics]
      case counted =>
        rw [enqueue_statistics, unasked, enqueue_merged]
        rfl

theorem nodup_merged (sweeping : problem.Sweeping log run) :
    run.merged.Nodup := by
  rw [sweeping.merged, List.Nodup, List.pairwise_map]
  refine sweeping.rising.imp_of_mem ?_
  intro later earlier laterInside earlierInside below same
  have laterPlaced := sweeping.placed later laterInside
  rw [same, sweeping.placed earlier earlierInside,
    Option.some.injEq] at laterPlaced
  omega

theorem swept (sweeping : problem.Sweeping log run) :
    problem.Swept log run where
  rising := sweeping.rising
  merged := sweeping.merged
  once := sweeping.nodup_merged
  settled := by
    intro state member inside
    rw [sweeping.merged] at inside
    rcases List.mem_map.mp inside with ⟨turn, turned, same⟩
    have placed := sweeping.placed turn turned
    rw [same] at placed
    exact Nat.lt_irrefl _ (sweeping.ahead turn turned state member _ placed)
  advanced turn member ways went :=
    have leaves := sweeping.advanced turn member ways went
    ⟨leaves, leaves.perm_successors⟩
  kept := sweeping.kept
  checks := by
    rw [sweeping.counted]
    exact countP_targets_le problem.targets sweeping.nodup_merged

end Problem.Sweeping

/-! ## Searches -/

variable {State : Type} {solver : Backend State} {problem : Problem}
  {statistics : Statistics} {start : State} {after : Dialogue State}

theorem Problem.Turns.sweeping
    {log : List Turn} {run : Run}
    (rising : problem.Rising) (visits : 1 ≤ problem.maxVisits)
    (kept : statistics.droppedStates = 0)
    (unasked : statistics.solverChecks = 0)
    (turns : problem.Turns solver statistics start log run after) :
    problem.Sweeping log run := by
  induction turns with
  | seeded made => exact .seed made kept unasked
  | turn earlier popped _ takes induction =>
      exact induction.turn rising visits earlier.searched.tidy popped takes

/-- What a search without cycles reports. -/
theorem Problem.Concludes.swept
    {report : Report}
    (rising : problem.Rising) (visits : 1 ≤ problem.maxVisits)
    (kept : statistics.droppedStates = 0)
    (unasked : statistics.solverChecks = 0)
    (decided : statistics.unknownChecks = 0)
    (concludes : problem.Concludes solver statistics start report after) :
    report.statistics.droppedStates = 0 ∧
      report.statistics.solverChecks ≤ problem.targets.dedup.length ∧
      (report.outcome = .unknown →
        ∃ call ∈ after.calls, call.verdict? = some .unknown) := by
  cases concludes with
  | exhausted turns empty =>
      have sweeping := turns.sweeping rising visits kept unasked
      rw [Run.exhausted]
      split
      · next left =>
          refine ⟨sweeping.kept, sweeping.swept.checks, fun _ => ?_⟩
          apply turns.exists_unknown decided
          have none := sweeping.kept
          omega
      · exact ⟨sweeping.kept, sweeping.swept.checks, by simp⟩
  | finished turns popped stepped =>
      have sweeping := turns.sweeping rising visits kept unasked
      have tidy := turns.searched.tidy
      rcases step_eq_finished stepped with ⟨_, target, witness, rfl⟩
      refine ⟨sweeping.kept, ?_, by simp⟩
      have once := List.nodup_cons.mpr
        ⟨sweeping.not_mem_merged tidy popped, sweeping.nodup_merged⟩
      have few := countP_targets_le problem.targets once
      rwa [List.countP_cons, ← sweeping.counted,
        if_pos (by simpa using target)] at few

/--
Without cycles between the entry and the targets, a search is one sweep: its
batches come up in strict order of rank, the entry with the seed alone and any
other block with one state for each edge from the blocks passed so far, and
nothing arrives at a block that has been merged.  So no state is dropped, no
target is checked twice, and the answer is open only where the solver left it
open.
-/
theorem acyclic_search_is_one_sweep
    {State : Type} (solver : Backend State) (start : State)
    (graph : FlowGraph) (targets : List BlockId) (maxVisits : Nat)
    (visits : 1 ≤ maxVisits) (acyclic : graph.AcyclicTowards targets) :
    (∀ problem statistics log run dialogue,
      Problem.prepare graph targets maxVisits = .ok (problem, statistics) →
      problem.Turns solver statistics start log run dialogue →
      problem.Swept log run ∧
        ∀ batch rest, run.worklist.pop? = some (batch, rest) →
          problem.Due log batch) ∧
    ∀ report dialogue,
      explore solver graph targets maxVisits (.start start) =
        (.ok report, dialogue) →
      report.statistics.droppedStates = 0 ∧
        report.statistics.solverChecks ≤ targets.dedup.length ∧
        (report.outcome = .unknown →
          ∃ call ∈ dialogue.calls, call.verdict? = some .unknown) := by
  have rising : (Problem.ofTargets graph targets maxVisits).Rising :=
    FlowGraph.rank_lt_of_leads acyclic
  constructor
  · intro problem statistics log run dialogue prepared turns
    rcases Problem.prepare_eq_ok prepared with ⟨rfl, kept, unasked, _⟩
    have sweeping := turns.sweeping rising visits kept unasked
    exact ⟨sweeping.swept, fun batch rest popped =>
      sweeping.due turns.searched.tidy popped⟩
  · intro report dialogue explored
    rw [explore] at explored
    cases prepared : Problem.prepare graph targets maxVisits with
    | error violation => simp [prepared, fail] at explored
    | ok made =>
        rcases made with ⟨problem, statistics⟩
        rw [prepared] at explored
        rcases Problem.prepare_eq_ok prepared with
          ⟨rfl, kept, unasked, decided⟩
        rcases Problem.search_concludes explored with rfl | concludes
        · exact ⟨kept, by simp [unasked], by simp⟩
        · exact concludes.swept rising visits kept unasked decided

/-- The parameter of the graph below. -/
def goesLeft : Variable := ⟨0, "left", .boolean⟩

/--
Two ways from block 2 over blocks 3 and 4 that join at block 5, which leads to
the exit.
-/
def twoWays : FlowGraph where
  id := 0
  parameters := [goesLeft]
  returns := []
  inner := [some (.jump (.var goesLeft)), none, none, none]
  edges := [⟨0, 2, .unconditional⟩, ⟨2, 3, .onTrue⟩, ⟨2, 4, .onFalse⟩,
    ⟨3, 5, .unconditional⟩, ⟨4, 5, .unconditional⟩, ⟨5, 1, .unconditional⟩]

/--
With both the join and the exit as targets, a solver that decides nothing lets
the search pass the first, and it sweeps all six blocks.
-/
theorem twoWays_search_is_one_sweep :
    twoWays.AcyclicTowards [twoWays.handle 5, twoWays.exit] ∧
      ∃ report dialogue,
        explore (oneVerdict .unknown) twoWays [twoWays.handle 5, twoWays.exit] 1
          (.start .none) = (.ok report, dialogue) ∧
        report = ⟨.unknown, ⟨0, 6, 6, 7, 2, 2, 0⟩⟩ ∧
        report.statistics.solverChecks ≤
          [twoWays.handle 5, twoWays.exit].dedup.length ∧
        ∃ call ∈ dialogue.calls, call.verdict? = some .unknown := by
  have acyclic : twoWays.AcyclicTowards [twoWays.handle 5, twoWays.exit] :=
    -- The exit has the lowest number but one, and comes last.
    FlowGraph.acyclicTowards_of_raises
      (fun place => if place = 1 then 6 else place) (by decide) _
  have reported : (explore (oneVerdict .unknown) twoWays
      [twoWays.handle 5, twoWays.exit] 1 (.start .none)).1 =
        .ok ⟨.unknown, ⟨0, 6, 6, 7, 2, 2, 0⟩⟩ := by decide +kernel
  rcases explored : explore (oneVerdict .unknown) twoWays
    [twoWays.handle 5, twoWays.exit] 1 (.start .none) with ⟨outcome, dialogue⟩
  rw [explored] at reported
  change outcome = _ at reported
  subst outcome
  have swept := (acyclic_search_is_one_sweep (oneVerdict .unknown) .none twoWays
    [twoWays.handle 5, twoWays.exit] 1 (Nat.le_refl 1) acyclic).2 _ _ explored
  exact ⟨acyclic, _, dialogue, rfl, rfl, swept.2.1, swept.2.2 rfl⟩

end FlowWitness.Exploration
