import FlowWitness.Proofs.Exploration.AcyclicSweep
import FlowWitness.Proofs.Exploration.SessionDiscipline

/-!
# What a search covers

With a visit to every block, no block is lost sight of.  A block that a state
was queued for has been merged, or the state still waits: the visits of a
block run out only after it was merged.  So when nothing waits any more, every
ranked block has been merged and gone past, unless a target on the way to it
was refuted.

Pruning and ranking keep exactly the blocks between the entry and the targets.
A search therefore asks the solver at least once if the graph has a path from
the entry to a target, whatever the conditions along it, and not at all if it
has none.
-/

namespace FlowWitness.Exploration

open FlowWitness.Graph
open FlowWitness.Program
open FlowWitness.Smt
open FlowWitness.Solver

/-- The block has been merged, or a state waits for it. -/
def Run.Knows (run : Run) (block : BlockId) : Prop :=
  block ∈ run.merged ∨ ∃ state ∈ run.waiting, state.block = block

namespace Problem

variable {problem : Problem} {run next : Run} {batch : Batch PathState}
  {rest : Worklist PathState} {ways : Option (List Departure)}
  {log : List Turn}

/-! ## One turn -/

/-- A turn that merges its batch goes on by the ways out, or has refuted. -/
theorem Takes.departs
    (takes : problem.Takes run batch ways next)
    (fresh : run.merged.count batch.block < problem.maxVisits) :
    (∃ edges, ways = some edges ∧ Leaves problem.graph batch.block
      (mergedVersions batch.states) edges) ∨
    (ways = none ∧ batch.block ∈ problem.targets) := by
  cases takes with
  | dropped spent => exact absurd fresh (Nat.not_lt.mpr spent)
  | refuted fresh target => exact Or.inr ⟨rfl, target⟩
  | passed fresh inner leaves => exact Or.inl ⟨_, rfl, leaves⟩
  | undecided fresh target leaves => exact Or.inl ⟨_, rfl, leaves⟩

/--
What is known stays known, because a batch is dropped only at a block that was
merged before.
-/
theorem Takes.knows
    (takes : problem.Takes (run.leaving rest) batch ways next)
    (visits : 1 ≤ problem.maxVisits) (filed : Filed problem.ranked batch)
    (popped : run.worklist.pop? = some (batch, rest))
    {block : BlockId} (knows : run.Knows block) :
    next.Knows block := by
  rcases takes.dropped_or_merges with ⟨spent, rfl, rfl⟩ | merges
  · rcases knows with merged | ⟨state, waits, rfl⟩
    · exact Or.inl merged
    · rcases Run.Tidy.mem_batch_or_rest popped waits with taken | left
      · rw [filed.gathered state taken]
        exact Or.inl (List.count_pos_iff.mp (Nat.le_trans visits spent))
      · exact Or.inr ⟨state, left, rfl⟩
  · rcases knows with merged | ⟨state, waits, rfl⟩
    · refine Or.inl ?_
      rw [merges.merged]
      exact List.mem_cons_of_mem _ merged
    · rcases Run.Tidy.mem_batch_or_rest popped waits with taken | left
      · refine Or.inl ?_
        rw [merges.merged, filed.gathered state taken]
        exact List.mem_cons_self
      · refine Or.inr ⟨state, ?_, rfl⟩
        rw [Run.waiting, merges.worklist]
        exact waiting_subset_queueAll _ left

/-- The ways out that a turn takes to ranked blocks become known. -/
theorem Takes.knows_next
    {edges : List Departure}
    (takes : problem.Takes run batch (some edges) next)
    {edge : Departure} (member : edge ∈ edges)
    (ranked : edge.next ∈ problem.ranked) :
    next.Knows edge.next := by
  rcases takes.dropped_or_merges with ⟨_, none, _⟩ | merges
  · cases none
  · refine Or.inr ⟨edge.state (run.mergedState batch)
      (run.marker batch.block), ?_, rfl⟩
    rw [Run.waiting, merges.worklist]
    exact state_mem_queueAll member ranked

/-! ## All turns -/

/-- What a search has covered after some turns. -/
structure Covering (problem : Problem) (log : List Turn) (run : Run) :
    Prop where
  entered : run.Knows problem.graph.entry
  visited : ∀ block ∈ run.merged, ∃ turn ∈ log,
    turn.block = block ∧ problem.admits turn = true
  departed : ∀ turn ∈ log, problem.admits turn = true →
    (∃ edges, turn.ways = some edges ∧ Leaves problem.graph turn.block
      (mergedVersions turn.batch.states) edges) ∨
    (turn.ways = none ∧ problem.asks turn = true)
  onward : ∀ turn ∈ log, ∀ edges, turn.ways = some edges → ∀ edge ∈ edges,
    edge.next ∈ problem.ranked → run.Knows edge.next

theorem Covering.turn
    (covering : problem.Covering log run) (visits : 1 ≤ problem.maxVisits)
    (filed : Filed problem.ranked batch)
    (popped : run.worklist.pop? = some (batch, rest))
    (takes : problem.Takes (run.leaving rest) batch ways next) :
    problem.Covering (⟨run.leaving rest, batch, ways⟩ :: log) next := by
  constructor
  case entered => exact takes.knows visits filed popped covering.entered
  case visited =>
    rcases takes.dropped_or_merges with ⟨_, _, rfl⟩ | merges
    · intro block merged
      rcases covering.visited block merged with ⟨turn, logged, found⟩
      exact ⟨turn, List.mem_cons_of_mem _ logged, found⟩
    · rw [merges.merged, List.forall_mem_cons]
      refine ⟨⟨_, List.mem_cons_self, rfl, decide_eq_true merges.fresh⟩, ?_⟩
      intro block merged
      rcases covering.visited block merged with ⟨turn, logged, found⟩
      exact ⟨turn, List.mem_cons_of_mem _ logged, found⟩
  case departed =>
    rw [List.forall_mem_cons]
    refine ⟨fun admitted => ?_, covering.departed⟩
    have fresh := of_decide_eq_true admitted
    rcases takes.departs fresh with leaves | ⟨stopped, target⟩
    · exact Or.inl leaves
    · exact Or.inr ⟨stopped, asks_iff.mpr ⟨fresh, target⟩⟩
  case onward =>
    rw [List.forall_mem_cons]
    constructor
    · rintro edges ⟨rfl⟩ edge member ranked
      exact takes.knows_next member ranked
    · intro turn logged edges gone edge member ranked
      exact takes.knows visits filed popped
        (covering.onward turn logged edges gone edge member ranked)

theorem Covering.asks_of_stopped
    (covering : problem.Covering log run) {turn : Turn} (logged : turn ∈ log)
    (admitted : problem.admits turn = true) (stopped : turn.ways = none) :
    problem.asks turn = true := by
  rcases covering.departed turn logged admitted with
    ⟨edges, gone, _⟩ | ⟨_, asks⟩
  · rw [gone] at stopped
    cases stopped
  · exact asks

variable {State : Type} {solver : Backend State} {statistics : Statistics}
  {start : State} {after : Dialogue State}

theorem Turns.covering
    (visits : 1 ≤ problem.maxVisits)
    (entered : problem.graph.entry ∈ problem.ranked)
    (turns : problem.Turns solver statistics start log run after) :
    problem.Covering log run := by
  induction turns with
  | seeded made =>
      rcases seed_eq_ok made with ⟨versions, _, _, rfl⟩
      refine ⟨Or.inr ⟨_, state_mem_enqueue entered, rfl⟩, ?_, by simp, by simp⟩
      rw [enqueue_merged]
      simp
  | turn earlier popped _ takes covering =>
      exact covering.turn visits (earlier.searched.tidy.filed_of_batch popped)
        popped takes

end Problem

/-! ## The end of a search -/

section Searches

variable {State : Type} {solver : Backend State} {graph : FlowGraph}
  {targets : List BlockId} {maxVisits : Nat} {start : State} {log : List Turn}
  {run : Run} {after : Dialogue State}

/--
A search with nothing left to look at has merged every ranked block, unless it
stopped at a target.
-/
theorem Problem.Covering.mem_merged
    (covering : (Problem.ofTargets graph targets maxVisits).Covering log run)
    (empty : run.worklist.batches = [])
    (goes : ∀ turn ∈ log,
      (Problem.ofTargets graph targets maxVisits).admits turn = true →
      turn.ways ≠ none)
    {block : BlockId}
    (ranked : block ∈ graph.rankedBlocks (graph.blocksReaching targets)) :
    block ∈ run.merged := by
  have settled : ∀ block, run.Knows block → block ∈ run.merged := by
    rintro block (merged | ⟨state, waits, _⟩)
    · exact merged
    · simp [Run.waiting, Worklist.waiting, empty] at waits
  have kept : ∀ block ∈ graph.blocksReaching targets,
      block ∈ graph.blocks := FlowGraph.blocksReaching_subset targets
  have entered := FlowGraph.entry_mem_rankedBlocks kept
    (FlowGraph.entry_mem_of_mem_rankedBlocks ranked)
  have path := FlowGraph.path_of_mem_rankedBlocks ranked
  suffices along :
      block ∈ graph.rankedBlocks (graph.blocksReaching targets) ∧
        block ∈ run.merged from along.2
  clear ranked
  -- Along the walk that ranks the block, every block is merged and gone past.
  induction path with
  | refl => exact ⟨entered, settled _ covering.entered⟩
  | tail _ step earlier =>
      rcases earlier with ⟨before, merged⟩
      rcases FlowGraph.walksTo_iff.mp step with ⟨edge, retained⟩
      have here :=
        FlowGraph.successor_mem_rankedBlocks kept before edge retained
      refine ⟨here, ?_⟩
      rcases covering.visited _ merged with ⟨turn, logged, rfl, admitted⟩
      rcases covering.departed turn logged admitted with
        ⟨edges, gone, leaves⟩ | ⟨stopped, _⟩
      · rcases List.mem_map.mp
          (leaves.perm_successors.mem_iff.mpr edge) with ⟨way, member, rfl⟩
        exact settled _
          (covering.onward turn logged edges gone way member here)
      · exact absurd stopped (goes turn logged admitted)

/-- A search that has merged a target has asked about it. -/
theorem Problem.Covering.exists_asks
    {problem : Problem} (covering : problem.Covering log run)
    {target : BlockId} (member : target ∈ problem.targets)
    (merged : target ∈ run.merged) :
    ∃ turn ∈ log, problem.asks turn = true := by
  rcases covering.visited target merged with ⟨turn, logged, rfl, admitted⟩
  exact ⟨turn, logged, asks_iff.mpr ⟨of_decide_eq_true admitted, member⟩⟩

/-- Where a path leads to a target, a search with a report asks about one. -/
theorem Explored.exists_asks
    (own : ∀ target ∈ targets, graph.contains target = true)
    (visits : 1 ≤ maxVisits)
    (connected : ∃ target ∈ targets,
      Relation.ReflTransGen graph.Leads graph.entry target)
    {report : Report}
    (explored :
      Explored solver graph targets maxVisits start log (.ok report) after) :
    ∃ turn ∈ log,
      (Problem.ofTargets graph targets maxVisits).asks turn = true := by
  cases explored with
  | unranked outside =>
      exact absurd ((FlowGraph.entry_mem_rankedBlocks_iff own).mpr connected)
        outside
  | searched entered stops =>
      cases stops with
      | exhausted turns empty =>
          have covering := turns.covering visits entered
          rcases connected with ⟨target, member, path⟩
          have ranked := (FlowGraph.mem_rankedBlocks_iff own).mpr
            ⟨path, target, member, .refl⟩
          by_contra silent
          have merged := covering.mem_merged empty
            (fun turn logged admitted stopped => silent
              ⟨turn, logged, covering.asks_of_stopped logged admitted stopped⟩)
            ranked
          exact silent (covering.exists_asks member merged)
      | finished turns popped stepped =>
          exact ⟨_, List.mem_cons_self,
            (Problem.history_of_step_eq_finished stepped).1⟩

/-- A search that asks about a target checks it. -/
theorem Disciplined.exists_checked
    {problem : Problem} {report : Report} {history : List Interaction}
    {checks : List (Check problem.graph.parameters)}
    (disciplined : Disciplined problem log (.ok report) history checks)
    (asked : ∃ turn ∈ log, problem.asks turn = true) :
    (∃ verdict, .checked (.ok verdict) ∈ history) ∧
      1 ≤ report.statistics.solverChecks := by
  rcases disciplined.whole with ⟨told, questions⟩
  have some : 0 < checks.length := by
    rw [← List.length_map Check.question, questions]
    rcases asked with ⟨turn, logged, asks⟩
    apply List.length_pos_of_mem
    exact List.mem_reverse.mpr
      (List.mem_map_of_mem (List.mem_filter.mpr ⟨logged, asks⟩))
  rcases List.exists_mem_of_length_pos some with ⟨check, member⟩
  constructor
  · exact ⟨check.verdict, told ▸ Check.checked_mem_flatMap member⟩
  · rw [(disciplined.judged report rfl).counted]
    exact some

/-- Without a path to a target, a search takes no turn and asks nothing. -/
theorem Explored.of_not_connected
    (own : ∀ target ∈ targets, graph.contains target = true)
    (apart : ¬ ∃ target ∈ targets,
      Relation.ReflTransGen graph.Leads graph.entry target)
    {result : Except Failure Report}
    (explored :
      Explored solver graph targets maxVisits start log result after) :
    result = .ok ⟨.unreachable, .atStart graph targets⟩ ∧
      after = .start start := by
  have outside := mt (FlowGraph.entry_mem_rankedBlocks_iff own).mp apart
  cases explored with
  | foreign found =>
      rw [find?_foreign own] at found
      cases found
  | unranked _ => exact ⟨rfl, rfl⟩
  | unseeded entered violated => exact absurd entered outside
  | searched entered stops => exact absurd entered outside

end Searches

/--
Whether the solver is asked is a matter of paths alone.  If no path of edges
leads from the entry to a target, conditions ignored, no target is reachable,
and the search says so without a merge or a call to the solver.  If there is a
path, a search with a report has asked for a verdict.
-/
theorem path_decides_whether_solver_is_asked
    {State : Type} (solver : Backend State) (start : State)
    (graph : FlowGraph) (targets : List BlockId) (maxVisits : Nat)
    (own : ∀ target ∈ targets, graph.contains target = true)
    (visits : 1 ≤ maxVisits) :
    ((¬ ∃ target ∈ targets,
        Relation.ReflTransGen graph.Leads graph.entry target) →
      ∃ statistics,
        explore solver graph targets maxVisits (.start start) =
          (.ok ⟨.unreachable, statistics⟩, .start start) ∧
        statistics.batches = 0 ∧ statistics.solverChecks = 0) ∧
    ((∃ target ∈ targets,
        Relation.ReflTransGen graph.Leads graph.entry target) →
      ∀ report dialogue,
        explore solver graph targets maxVisits (.start start) =
          (.ok report, dialogue) →
        (∃ verdict, .checked (.ok verdict) ∈ dialogue.history) ∧
          1 ≤ report.statistics.solverChecks) := by
  rcases exists_explored solver graph targets maxVisits start with
    ⟨log, explored⟩
  constructor
  · intro apart
    rcases explored.of_not_connected own apart with ⟨reported, silent⟩
    exact ⟨.atStart graph targets, Prod.ext reported silent, rfl, rfl⟩
  · intro connected report dialogue ended
    rw [ended] at explored
    rcases explored.disciplined with ⟨checks, disciplined⟩
    exact disciplined.exists_checked
      (explored.exists_asks own visits connected)

/-- The parameter of the graph below. -/
def staysAshore : Variable := ⟨0, "stays_ashore", .boolean⟩

/--
Blocks 2 and 3 lie on a cycle that the entry leads to.  Block 4 leads to the
exit as well, but nothing leads to it.
-/
def islet : FlowGraph where
  id := 0
  parameters := [staysAshore]
  returns := []
  inner := [some (.jump (.var staysAshore)), none, none]
  edges := [⟨0, 2, .unconditional⟩, ⟨2, 1, .onTrue⟩, ⟨2, 3, .onFalse⟩,
    ⟨3, 2, .unconditional⟩, ⟨4, 1, .unconditional⟩]

/--
The solver would find a model for block 4 and is never asked; block 3 it
refutes, and so it was asked.
-/
theorem islet_path_decides_whether_solver_is_asked :
    (∃ statistics,
      explore (oneVerdict .sat) islet [islet.handle 4] 1 (.start .none) =
        (.ok ⟨.unreachable, statistics⟩, .start .none) ∧
      statistics.batches = 0 ∧ statistics.solverChecks = 0) ∧
    (explore (oneVerdict .unsat) islet [islet.handle 3] 1 (.start .none)).1 =
      .ok ⟨.unreachable, ⟨2, 3, 3, 3, 1, 0, 0⟩⟩ ∧
    ∃ verdict, .checked (.ok verdict) ∈
      (explore (oneVerdict .unsat) islet [islet.handle 3] 1
        (.start .none)).2.history := by
  have apart : islet.entry ∉ islet.rankedBlocks
      (islet.blocksReaching [islet.handle 4]) := by decide +kernel
  have connected : islet.entry ∈ islet.rankedBlocks
      (islet.blocksReaching [islet.handle 3]) := by decide +kernel
  have unreachable : (explore (oneVerdict .unsat) islet [islet.handle 3] 1
      (.start .none)).1 = .ok ⟨.unreachable, ⟨2, 3, 3, 3, 1, 0, 0⟩⟩ := by
    decide +kernel
  have ownIslet : ∀ target ∈ [islet.handle 4],
      islet.contains target = true := by decide
  have ownCycle : ∀ target ∈ [islet.handle 3],
      islet.contains target = true := by decide
  refine ⟨?_, unreachable, ?_⟩
  · rw [FlowGraph.entry_mem_rankedBlocks_iff ownIslet] at apart
    exact (path_decides_whether_solver_is_asked (oneVerdict .sat) .none islet
      [islet.handle 4] 1 ownIslet (Nat.le_refl 1)).1 apart
  · rw [FlowGraph.entry_mem_rankedBlocks_iff ownCycle] at connected
    have asked := (path_decides_whether_solver_is_asked (oneVerdict .unsat)
      .none islet [islet.handle 3] 1 ownCycle (Nat.le_refl 1)).2 connected
    generalize explore (oneVerdict .unsat) islet [islet.handle 3] 1
      (.start .none) = ended at unreachable asked ⊢
    exact (asked _ _ (Prod.ext unreachable rfl)).1

end FlowWitness.Exploration
