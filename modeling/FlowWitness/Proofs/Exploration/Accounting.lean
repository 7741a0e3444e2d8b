import FlowWitness.Proofs.Exploration.SearchLog
import FlowWitness.Proofs.Exploration.Tracking

/-!
# The accounts of a search

On a graph with cycles a state can be queued at a lower rank than the batch
it comes from, and batches are taken that are only dropped, so neither the
ranks nor the length of the worklist show that the search ends.  The visits
do: every merge uses up a visit of its block and queues at most two states,
and nothing else queues a state at all.

The books balance at every moment: each state that was ever queued has been
merged, has been dropped, or waits.  A merge is numbered by the earlier merges
of its block, so no two have the same marker.
-/

namespace FlowWitness.Exploration

open FlowWitness.Graph
open FlowWitness.Program
open FlowWitness.Smt
open FlowWitness.Solver

/-! ## The size of a worklist -/

namespace Worklist

variable {Entry : Type} {worklist rest : Worklist Entry} {batch : Batch Entry}

/-- The counter of a worklist is the number of states that wait. -/
def Sized (worklist : Worklist Entry) : Prop :=
  worklist.size = worklist.waiting.length

theorem length_waiting_push (rank : Nat) (block : BlockId) (state : Entry) :
    (worklist.push rank block state).waiting.length =
      worklist.waiting.length + 1 :=
  (waiting_enqueue_perm rank block state worklist.batches).length_eq

theorem Sized.push
    (sized : worklist.Sized) (rank : Nat) (block : BlockId) (state : Entry) :
    (worklist.push rank block state).Sized := by
  rw [Sized, length_waiting_push]
  exact congrArg (· + 1) sized

theorem size_of_pop (popped : worklist.pop? = some (batch, rest)) :
    rest.size = worklist.size - batch.states.length := by
  rw [pop?] at popped
  split at popped
  · simp at popped
  · simp only [Option.some.injEq, Prod.mk.injEq] at popped
    rcases popped with ⟨rfl, rfl⟩
    rfl

theorem Sized.of_pop
    (sized : worklist.Sized) (popped : worklist.pop? = some (batch, rest)) :
    rest.Sized := by
  have split : worklist.waiting.length =
      batch.states.length + rest.waiting.length := by
    rw [waiting_of_pop popped, List.length_append]
  have taken := size_of_pop popped
  rw [Sized] at sized ⊢
  omega

end Worklist

namespace Problem

/-- Is the block of the state ranked?  Other states are not queued. -/
def ranks (problem : Problem) (state : PathState) : Bool :=
  problem.ranked.contains state.block

variable {problem : Problem} {run next : Run} {source : PathState}
  {marker : Term}

theorem sized_enqueue (sized : run.worklist.Sized) (state : PathState) :
    (problem.enqueue run state).worklist.Sized := by
  rw [enqueue]
  split
  · exact sized.push _ _ _
  · exact sized

theorem sized_queueAll (sized : run.worklist.Sized) (edges : List Departure) :
    (problem.queueAll source marker edges run).worklist.Sized := by
  induction edges generalizing run with
  | nil => exact sized
  | cons edge rest induction => exact induction (sized_enqueue sized _)

theorem length_waiting_enqueue (state : PathState) :
    (problem.enqueue run state).waiting.length =
      run.waiting.length + if problem.ranks state then 1 else 0 := by
  rw [enqueue]
  split
  · next found =>
      rw [if_pos (by simpa [ranks] using mem_of_rankOf? found)]
      exact Worklist.length_waiting_push _ _ _
  · next unranked =>
      have outside : state.block ∉ problem.ranked := by
        intro ranked
        rcases exists_rankOf? ranked with ⟨rank, found⟩
        simp [found] at unranked
      rw [if_neg (by simpa [ranks] using outside), Nat.add_zero]

/-- Queueing adds a state for each way out to a ranked block. -/
theorem length_waiting_queueAll (edges : List Departure) :
    (problem.queueAll source marker edges run).waiting.length =
      run.waiting.length +
        (edges.map (Departure.state source marker)).countP problem.ranks := by
  induction edges generalizing run with
  | nil => rfl
  | cons edge rest induction =>
      calc
        (problem.queueAll source marker rest
            (problem.enqueue run (edge.state source marker))).waiting.length =
            (problem.enqueue run (edge.state source marker)).waiting.length +
              (rest.map (Departure.state source marker)).countP
                problem.ranks := induction
        _ = _ := by
          rw [length_waiting_enqueue, List.map_cons, List.countP_cons]
          omega

/-! ## Books -/

/-- How many states were queued: the seed, and all that the turns sent on. -/
def enqueued (problem : Problem) (log : List Turn) : Nat :=
  1 + (log.flatMap Turn.sent).countP problem.ranks

/-- The markers of the merges, the latest first. -/
def markers (problem : Problem) (log : List Turn) : List Term :=
  (log.filter problem.admits).map Turn.marker

/-- The books of a search balance after some turns. -/
structure Balanced (problem : Problem) (log : List Turn) (run : Run) :
    Prop where
  sized : run.worklist.Sized
  recorded : run.merged = (log.filter problem.admits).map Turn.block
  counted : run.statistics.batches = run.merged.length
  balance : problem.enqueued log = run.statistics.statesMerged +
    run.statistics.droppedStates + run.worklist.size
  supplied : problem.enqueued log ≤ 1 + 2 * run.statistics.batches
  paid : log.length + run.worklist.batches.length ≤ 1 + 2 * run.merged.length
  numbered : ∀ turn ∈ log, problem.admits turn = true →
    turn.run.merged.count turn.block < run.merged.count turn.block
  distinct : (problem.markers log).Nodup

/-- What a merge enters in the books. -/
structure Books (problem : Problem) (run : Run) (batch : Batch PathState)
    (ways : Option (List Departure)) (next : Run) : Prop where
  fresh : run.merged.count batch.block < problem.maxVisits
  merged : next.merged = batch.block :: run.merged
  few : (ways.getD []).length ≤ 2
  worklist : next.worklist = (problem.queueAll (run.mergedState batch)
    (run.marker batch.block) (ways.getD []) (run.afterMerge batch)).worklist
  batches : next.statistics.batches = run.statistics.batches + 1
  arrivals : next.statistics.statesMerged =
    run.statistics.statesMerged + batch.states.length
  dropped : next.statistics.droppedStates = run.statistics.droppedStates

variable {batch : Batch PathState} {rest : Worklist PathState}
  {ways : Option (List Departure)} {log : List Turn}

/-- Before the search goes on from a merged block, nothing is queued yet. -/
theorem books_afterMerge
    (fresh : run.merged.count batch.block < problem.maxVisits) :
    problem.Books run batch none (run.afterMerge batch) :=
  ⟨fresh, rfl, Nat.zero_le 2, rfl, rfl, rfl, rfl⟩

theorem Takes.dropped_or_books
    (takes : problem.Takes run batch ways next) :
    (problem.maxVisits ≤ run.merged.count batch.block ∧ ways = none ∧
      next = run.drop batch.states.length) ∨
    problem.Books run batch ways next := by
  cases takes with
  | dropped spent => exact Or.inl ⟨spent, rfl, rfl⟩
  | refuted fresh target =>
      exact Or.inr ⟨fresh, rfl, Nat.zero_le 2, rfl, rfl, rfl, rfl⟩
  | passed fresh inner leaves =>
      refine Or.inr ⟨fresh, queueAll_merged _, leaves.length_le_two, rfl,
        ?_, ?_, ?_⟩ <;> rw [queueAll_statistics] <;> rfl
  | undecided fresh target leaves =>
      refine Or.inr ⟨fresh, queueAll_merged _, leaves.length_le_two,
        queueAll_worklist_congr (by rfl) _, ?_, ?_, ?_⟩ <;>
        rw [queueAll_statistics] <;> rfl

theorem enqueued_cons (problem : Problem) (turn : Turn) (log : List Turn) :
    problem.enqueued (turn :: log) =
      problem.enqueued log + turn.sent.countP problem.ranks := by
  rw [enqueued, enqueued, List.flatMap_cons, List.countP_append]
  omega

namespace Balanced

theorem drop
    (balanced : problem.Balanced log run)
    (popped : run.worklist.pop? = some (batch, rest))
    (spent : problem.maxVisits ≤ run.merged.count batch.block) :
    problem.Balanced (⟨run.leaving rest, batch, none⟩ :: log)
      ((run.leaving rest).drop batch.states.length) := by
  have refused :
      problem.admits ⟨run.leaving rest, batch, none⟩ = false :=
    decide_eq_false (Nat.not_lt.mpr spent)
  have same : problem.enqueued (⟨run.leaving rest, batch, none⟩ :: log) =
      problem.enqueued log := enqueued_cons problem _ log
  have left := balanced.sized.of_pop popped
  have taken := Worklist.pop?_eq_some popped
  constructor
  case sized => exact left
  case recorded =>
    rw [List.filter_cons_of_neg (by simp [refused])]
    exact balanced.recorded
  case counted => exact balanced.counted
  case balance =>
    have waiting : run.worklist.size = batch.states.length + rest.size := by
      rw [balanced.sized, left, Worklist.waiting_of_pop popped,
        List.length_append]
    have before := balanced.balance
    change problem.enqueued _ = run.statistics.statesMerged +
      (run.statistics.droppedStates + batch.states.length) + rest.size
    omega
  case supplied => exact same ▸ balanced.supplied
  case paid =>
    have before := balanced.paid
    rw [taken, List.length_cons] at before
    change log.length + 1 + rest.batches.length ≤ 1 + 2 * run.merged.length
    omega
  case numbered =>
    rw [List.forall_mem_cons]
    exact ⟨by simp [refused], balanced.numbered⟩
  case distinct =>
    rw [markers, List.filter_cons_of_neg (by simp [refused])]
    exact balanced.distinct

/-- The marker of a merge is new. -/
theorem marker_not_mem
    (balanced : problem.Balanced log run) (owned : problem.Owned)
    (tidy : run.Tidy problem)
    (popped : run.worklist.pop? = some (batch, rest)) :
    run.marker batch.block ∉ problem.markers log := by
  intro member
  rcases List.mem_map.mp member with ⟨turn, inside, same⟩
  rcases List.mem_filter.mp inside with ⟨logged, admitted⟩
  have earlier := balanced.numbered turn logged admitted
  have merged : turn.block ∈ run.merged :=
    List.count_pos_iff.mp (Nat.zero_lt_of_lt earlier)
  rcases reachMarker_injective (owned.sameGraph tidy popped _ merged) same with
    ⟨blocks, visits⟩
  rw [blocks] at earlier visits
  omega

theorem merge
    (balanced : problem.Balanced log run) (owned : problem.Owned)
    (tidy : run.Tidy problem)
    (popped : run.worklist.pop? = some (batch, rest))
    (books : problem.Books (run.leaving rest) batch ways next) :
    problem.Balanced (⟨run.leaving rest, batch, ways⟩ :: log) next := by
  have admitted : problem.admits ⟨run.leaving rest, batch, ways⟩ = true :=
    decide_eq_true books.fresh
  have left := balanced.sized.of_pop popped
  have taken := Worklist.pop?_eq_some popped
  have sized : next.worklist.Sized := by
    rw [books.worklist]
    exact sized_queueAll left _
  -- What the turn sends to ranked blocks is what joins the worklist.
  have queued := enqueued_cons problem ⟨run.leaving rest, batch, ways⟩ log
  have joined : next.worklist.size = rest.size +
      (Turn.sent ⟨run.leaving rest, batch, ways⟩).countP problem.ranks := by
    rw [sized, books.worklist, left]
    exact length_waiting_queueAll _
  have sent : (Turn.sent ⟨run.leaving rest, batch, ways⟩).countP
      problem.ranks ≤ 2 := by
    refine List.countP_le_length.trans ?_
    rw [Turn.sent, List.length_map]
    exact books.few
  have counted := balanced.counted
  have batches : next.statistics.batches = run.statistics.batches + 1 :=
    books.batches
  have merged : next.merged = batch.block :: run.merged := books.merged
  constructor
  case sized => exact sized
  case recorded =>
    rw [List.filter_cons_of_pos admitted, List.map_cons, ← balanced.recorded]
    exact merged
  case counted => rw [batches, merged, List.length_cons, counted]
  case balance =>
    have waiting : run.worklist.size = batch.states.length + rest.size := by
      rw [balanced.sized, left, Worklist.waiting_of_pop popped,
        List.length_append]
    have before := balanced.balance
    have arrivals : next.statistics.statesMerged =
        run.statistics.statesMerged + batch.states.length := books.arrivals
    have dropped : next.statistics.droppedStates =
        run.statistics.droppedStates := books.dropped
    omega
  case supplied =>
    have before := balanced.supplied
    omega
  case paid =>
    have before := balanced.paid
    rw [taken, List.length_cons] at before
    have more : next.worklist.batches.length ≤
        rest.batches.length + (ways.getD []).length := by
      rw [books.worklist]
      exact length_queueAll_le _
    have few := books.few
    rw [merged, List.length_cons, List.length_cons]
    omega
  case numbered =>
    have grown : ∀ block,
        run.merged.count block ≤ next.merged.count block := by
      intro block
      rw [merged]
      exact List.count_le_count_cons
    rw [List.forall_mem_cons]
    constructor
    · intro _
      rw [merged]
      change run.merged.count batch.block <
        (batch.block :: run.merged).count batch.block
      rw [List.count_cons_self]
      exact Nat.lt_succ_self _
    · intro turn member earlier
      exact Nat.lt_of_lt_of_le (balanced.numbered turn member earlier)
        (grown turn.block)
  case distinct =>
    rw [markers, List.filter_cons_of_pos admitted, List.map_cons]
    exact List.nodup_cons.mpr
      ⟨balanced.marker_not_mem owned tidy popped, balanced.distinct⟩

theorem seed
    {statistics : Statistics}
    (entered : problem.graph.entry ∈ problem.ranked)
    (seeded : problem.seed statistics = .ok run)
    (fresh : statistics.batches = 0 ∧ statistics.statesMerged = 0 ∧
      statistics.droppedStates = 0) :
    problem.Balanced [] run := by
  rcases seed_eq_ok seeded with ⟨versions, _, _, made⟩
  have empty : (Worklist.empty : Worklist PathState).Sized := rfl
  have sized : run.worklist.Sized := by
    rw [made]
    exact sized_enqueue empty _
  have merged : run.merged = [] := by rw [made, enqueue_merged]
  have counters : run.statistics = statistics := by
    rw [made, enqueue_statistics]
  have one : run.worklist.size = 1 := by
    rw [sized, made]
    change (problem.enqueue ⟨.empty, [], statistics, 0⟩
      (.seed problem.graph.entry versions)).waiting.length = 1
    rw [length_waiting_enqueue,
      if_pos (by simpa [ranks, PathState.seed] using entered)]
    rfl
  have few : run.worklist.batches.length ≤ 0 + 1 := by
    rw [made]
    exact length_enqueue_le _
  constructor
  case sized => exact sized
  case recorded => exact merged
  case counted => rw [counters, fresh.1, merged, List.length_nil]
  case balance =>
    rw [one, counters, fresh.2.1, fresh.2.2]
    rfl
  case supplied => exact Nat.le_add_right 1 _
  case paid =>
    rw [merged, List.length_nil, Nat.zero_add]
    exact few
  case numbered => simp
  case distinct => exact List.nodup_nil

end Balanced

variable {State : Type} {solver : Backend State} {statistics : Statistics}
  {start : State} {after : Dialogue State}

/-- The books of a search balance at every turn. -/
theorem Turns.balanced
    (owned : problem.Owned) (entered : problem.graph.entry ∈ problem.ranked)
    (fresh : statistics.batches = 0 ∧ statistics.statesMerged = 0 ∧
      statistics.droppedStates = 0)
    (turns : problem.Turns solver statistics start log run after) :
    problem.Balanced log run := by
  induction turns with
  | seeded made => exact .seed entered made fresh
  | turn earlier popped _ takes balanced =>
      rcases takes.dropped_or_books with ⟨spent, rfl, rfl⟩ | books
      · exact balanced.drop popped spent
      · exact balanced.merge owned earlier.searched.tidy popped books

/-- The books of a search, and what it has spent against what it may spend. -/
structure Accounted (problem : Problem) (log : List Turn) (run : Run) : Prop
    extends problem.Balanced log run where
  visits : ∀ block, run.merged.count block ≤ problem.maxVisits
  merges : run.merged.length ≤ problem.maxVisits * problem.ranked.length
  rounds : log.length + run.worklist.batches.length ≤
    1 + 2 * problem.maxVisits * problem.ranked.length

theorem Balanced.accounted
    (balanced : problem.Balanced log run)
    (visits : ∀ block, run.merged.count block ≤ problem.maxVisits)
    (ranked : ∀ block ∈ run.merged, block ∈ problem.ranked) :
    problem.Accounted log run where
  toBalanced := balanced
  visits := visits
  merges := length_le_of_count_le visits ranked
  rounds := by
    have few := length_le_of_count_le visits ranked
    have paid := balanced.paid
    rw [Nat.mul_assoc]
    omega

/-- The books balance also between a merge and the step past its block. -/
theorem Balanced.accounted_afterMerge
    (balanced : problem.Balanced log run) (owned : problem.Owned)
    (tidy : run.Tidy problem)
    (popped : run.worklist.pop? = some (batch, rest))
    (fresh : run.merged.count batch.block < problem.maxVisits) :
    problem.Accounted (⟨run.leaving rest, batch, none⟩ :: log)
      ((run.leaving rest).afterMerge batch) := by
  have merged : ((run.leaving rest).afterMerge batch).merged =
      batch.block :: run.merged := rfl
  apply (balanced.merge owned tidy popped (books_afterMerge fresh)).accounted
  · intro block
    rw [merged, List.count_cons]
    split
    · next same =>
        rw [beq_iff_eq] at same
        subst block
        exact fresh
    · exact tidy.counted block
  · rw [merged, List.forall_mem_cons]
    exact ⟨mem_of_rankOf? (tidy.filed_of_batch popped).placed, tidy.ranked⟩

theorem Turns.accounted
    {graph : FlowGraph} {targets : List BlockId} {maxVisits : Nat}
    (entered : graph.entry ∈
      graph.rankedBlocks (graph.blocksReaching targets))
    (turns : (Problem.ofTargets graph targets maxVisits).Turns solver
      (.atStart graph targets) start log run after) :
    (Problem.ofTargets graph targets maxVisits).Accounted log run :=
  have tidy := turns.searched.tidy
  (turns.balanced (owned_ofTargets graph targets maxVisits) entered
    ⟨rfl, rfl, rfl⟩).accounted tidy.counted tidy.ranked

/-- The turns of a whole search stay within the rounds. -/
theorem Stops.length_le
    {graph : FlowGraph} {targets : List BlockId} {maxVisits : Nat}
    (entered : graph.entry ∈
      graph.rankedBlocks (graph.blocksReaching targets))
    {result : Except Failure Report}
    (stops : (Problem.ofTargets graph targets maxVisits).Stops solver
      (.atStart graph targets) start log result after) :
    log.length ≤ 1 + 2 * maxVisits *
      (graph.rankedBlocks (graph.blocksReaching targets)).length := by
  have within : ∀ {log : List Turn} {last : Run} {before : Dialogue State}
      {batch : Batch PathState} {rest : Worklist PathState},
      (Problem.ofTargets graph targets maxVisits).Turns solver
        (.atStart graph targets) start log last before →
      last.worklist.pop? = some (batch, rest) →
      log.length + 1 ≤ 1 + 2 * maxVisits *
        (graph.rankedBlocks (graph.blocksReaching targets)).length := by
    intro log last before batch rest turns popped
    have rounds := (turns.accounted entered).rounds
    rw [Worklist.pop?_eq_some popped, List.length_cons] at rounds
    change _ ≤ 1 + 2 * maxVisits *
      (graph.rankedBlocks (graph.blocksReaching targets)).length at rounds
    omega
  cases stops with
  | exhausted turns empty =>
      exact Nat.le_of_add_right_le (turns.accounted entered).rounds
  | finished turns popped stepped => exact within turns popped
  | failed turns popped stepped => exact within turns popped

end Problem

theorem Worklist.eq_empty
    {Entry : Type} {worklist : Worklist Entry} (sized : worklist.Sized)
    (none : worklist.batches = []) :
    worklist = .empty := by
  rcases worklist with ⟨batches, size⟩
  subst none
  rw [Worklist.empty, Worklist.mk.injEq]
  exact ⟨rfl, sized⟩

section Searches

variable {State : Type} {solver : Backend State} {graph : FlowGraph}
  {targets : List BlockId} {maxVisits : Nat} {start : State} {log : List Turn}
  {after : Dialogue State}

theorem Explored.length_le
    {result : Except Failure Report}
    (explored :
      Explored solver graph targets maxVisits start log result after) :
    log.length ≤ 1 + 2 * maxVisits *
      (graph.rankedBlocks (graph.blocksReaching targets)).length := by
  cases explored with
  | foreign found => exact Nat.zero_le _
  | unranked outside => exact Nat.zero_le _
  | unseeded entered violated => exact Nat.zero_le _
  | searched entered stops => exact stops.length_le entered

/-- A search without a witness never began, or has run out of states. -/
theorem Explored.nothing_left
    {report : Report}
    (explored :
      Explored solver graph targets maxVisits start log (.ok report) after)
    (missed : report.outcome = .unreachable ∨ report.outcome = .unknown) :
    (graph.entry ∉ graph.rankedBlocks (graph.blocksReaching targets) ∧
      log = []) ∨
    ∃ last,
      (Problem.ofTargets graph targets maxVisits).Turns solver
        (.atStart graph targets) start log last after ∧
      last.worklist = .empty ∧ report = last.exhausted := by
  cases explored with
  | unranked outside => exact Or.inl ⟨outside, rfl⟩
  | searched entered stops =>
      cases stops with
      | exhausted turns empty =>
          have sized := (turns.accounted entered).sized
          exact Or.inr ⟨_, turns, Worklist.eq_empty sized empty, rfl⟩
      | finished turns popped stepped =>
          rcases Problem.step_eq_finished stepped with ⟨_, _, witness, rfl⟩
          simp at missed

end Searches

/--
A search ends, whatever the graph, the bound and the answers of the solver.
With `n` ranked blocks and `k` visits to each it takes at most `1 + 2 * k * n`
batches, merges at most `k * n` of them, and none at one block more than `k`
times.  At every turn, and between a merge and the step past its block, the
states queued so far are those merged, those dropped and those that wait, they
are at most one more than twice the merges, and no two merges share a marker.
A search that ends without a witness leaves nothing behind.
-/
theorem search_ends_within_its_visits
    {State : Type} (solver : Backend State) (start : State)
    (graph : FlowGraph) (targets : List BlockId) (maxVisits : Nat) :
    (graph.rankedBlocks (graph.blocksReaching targets)).Nodup ∧
    (graph.entry ∈ graph.rankedBlocks (graph.blocksReaching targets) →
      ∀ log run dialogue,
        (Problem.ofTargets graph targets maxVisits).Turns solver
          (.atStart graph targets) start log run dialogue →
        (Problem.ofTargets graph targets maxVisits).Accounted log run ∧
          ∀ batch rest, run.worklist.pop? = some (batch, rest) →
            run.merged.count batch.block < maxVisits →
            (Problem.ofTargets graph targets maxVisits).Accounted
              (⟨run.leaving rest, batch, none⟩ :: log)
              ((run.leaving rest).afterMerge batch)) ∧
    ∃ log,
      Explored solver graph targets maxVisits start log
        (explore solver graph targets maxVisits (.start start)).1
        (explore solver graph targets maxVisits (.start start)).2 ∧
      log.length ≤ 1 + 2 * maxVisits *
        (graph.rankedBlocks (graph.blocksReaching targets)).length ∧
      ∀ report,
        (explore solver graph targets maxVisits (.start start)).1 =
          .ok report →
        report.outcome = .unreachable ∨ report.outcome = .unknown →
        (graph.entry ∉ graph.rankedBlocks (graph.blocksReaching targets) ∧
          log = []) ∨
        ∃ last,
          (Problem.ofTargets graph targets maxVisits).Turns solver
            (.atStart graph targets) start log last
            (explore solver graph targets maxVisits (.start start)).2 ∧
          last.worklist = .empty ∧ report = last.exhausted := by
  refine ⟨FlowGraph.nodup_rankedBlocks, ?_, ?_⟩
  · intro entered log run dialogue turns
    refine ⟨turns.accounted entered, fun batch rest popped fresh => ?_⟩
    have owned := Problem.owned_ofTargets graph targets maxVisits
    exact (turns.accounted entered).accounted_afterMerge owned
      turns.searched.tidy popped fresh
  · rcases exists_explored solver graph targets maxVisits start with
      ⟨log, explored⟩
    refine ⟨log, explored, explored.length_le, ?_⟩
    intro report ended missed
    rw [ended] at explored
    exact explored.nothing_left missed

/-- The parameter of the graph below. -/
def turnsOff : Variable := ⟨0, "turns_off", .boolean⟩

/-- Block 2 goes to the exit, or over block 3 back to itself. -/
def roundabout : FlowGraph where
  id := 0
  parameters := [turnsOff]
  returns := []
  inner := [some (.jump (.var turnsOff)), none]
  edges := [⟨0, 2, .unconditional⟩, ⟨2, 1, .onTrue⟩, ⟨2, 3, .onFalse⟩,
    ⟨3, 2, .unconditional⟩]

/--
With two visits to a block, the third state that comes to block 2 is dropped,
and the books balance: eight states were queued, seven of them merged.
-/
theorem roundabout_search_ends_within_its_visits :
    ∃ log last dialogue,
      (Problem.ofTargets roundabout [roundabout.exit] 2).Turns
        (oneVerdict .unknown) (.atStart roundabout [roundabout.exit]) .none log
        last dialogue ∧
      last.statistics = ⟨0, 4, 7, 7, 2, 2, 1⟩ ∧ last.worklist = .empty ∧
      log.length ≤ 1 + 2 * 2 * 4 ∧
      (Problem.ofTargets roundabout [roundabout.exit] 2).enqueued log = 8 ∧
      (Problem.ofTargets roundabout [roundabout.exit] 2).Accounted log
        last := by
  have reported : (explore (oneVerdict .unknown) roundabout [roundabout.exit] 2
      (.start .none)).1 = .ok ⟨.unknown, ⟨0, 4, 7, 7, 2, 2, 1⟩⟩ := by
    decide +kernel
  have entered : roundabout.entry ∈ roundabout.rankedBlocks
      (roundabout.blocksReaching [roundabout.exit]) := by decide +kernel
  rcases search_ends_within_its_visits (oneVerdict .unknown) .none roundabout
    [roundabout.exit] 2 with ⟨_, accounts, log, _, few, ends⟩
  rcases ends _ reported (Or.inr rfl) with
    ⟨outside, _⟩ | ⟨last, turns, empty, same⟩
  · exact absurd entered outside
  have accounted := (accounts entered log last _ turns).1
  have counters : last.statistics = ⟨0, 4, 7, 7, 2, 2, 1⟩ := by
    have statistics := congrArg Report.statistics same
    rw [Run.exhausted] at statistics
    split at statistics <;> exact statistics.symm
  have balance := accounted.balance
  rw [counters, empty] at balance
  exact ⟨log, last, _, turns, counters, empty, few, balance, accounted⟩

end FlowWitness.Exploration
