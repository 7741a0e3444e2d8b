import FlowWitness.Proofs.Exploration.Questions
import FlowWitness.Proofs.Exploration.SearchEnd

/-!
# The log of a search

A search takes its batches in turn.  The log of a search holds, for every
turn, the batch that was taken, the run that was left without it, and the ways
out by which the search went on past the block; there are none to go by if the
batch was dropped or the solver refuted the target.

The log is a record of the loop itself: every turn is a step of the loop from
the dialogue at which the one before it ended, and a search ends, with a
report or with a failure, after the turns of some log.
-/

namespace FlowWitness.Exploration

open FlowWitness.Graph
open FlowWitness.Program
open FlowWitness.Smt
open FlowWitness.Solver
open FlowWitness.Solver.Conversation

/-- A batch that was taken, and the ways by which the search went on from it. -/
structure Turn where
  run : Run
  batch : Batch PathState
  ways : Option (List Departure)

namespace Turn

/-- The block of the turn. -/
def block (turn : Turn) : BlockId := turn.batch.block

/-- The state that the batch was merged into. -/
def state (turn : Turn) : PathState := turn.run.mergedState turn.batch

/-- The marker of the visit. -/
def marker (turn : Turn) : Term := turn.run.marker turn.block

/-- One state for each of the ways out. -/
def sent (turn : Turn) : List PathState :=
  (turn.ways.getD []).map (Departure.state turn.state turn.marker)

end Turn

variable {State : Type}

namespace Problem

/-- Has the block of the turn a visit left, so that its batch is merged? -/
def admits (problem : Problem) (turn : Turn) : Bool :=
  turn.run.merged.count turn.block < problem.maxVisits

/-- What a search does with a batch, and the ways by which it goes on. -/
inductive Takes (problem : Problem) (run : Run) (batch : Batch PathState) :
    Option (List Departure) → Run → Prop where
  | dropped (spent : problem.maxVisits ≤ run.merged.count batch.block) :
      Takes problem run batch none (run.drop batch.states.length)
  | refuted
      (fresh : run.merged.count batch.block < problem.maxVisits)
      (target : batch.block ∈ problem.targets) :
      Takes problem run batch none (run.afterMerge batch).countCheck
  | passed {edges : List Departure}
      (fresh : run.merged.count batch.block < problem.maxVisits)
      (inner : batch.block ∉ problem.targets)
      (leaves : Leaves problem.graph batch.block
        (mergedVersions batch.states) edges) :
      Takes problem run batch (some edges)
        (problem.queueAll (run.mergedState batch) (run.marker batch.block)
          edges (run.afterMerge batch))
  | undecided {edges : List Departure}
      (fresh : run.merged.count batch.block < problem.maxVisits)
      (target : batch.block ∈ problem.targets)
      (leaves : Leaves problem.graph batch.block
        (mergedVersions batch.states) edges) :
      Takes problem run batch (some edges)
        (problem.queueAll (run.mergedState batch) (run.marker batch.block)
          edges (run.afterMerge batch).countCheck.countUndecided)

/--
The turns of a search so far, the latest first, with the run and the dialogue
after them.
-/
inductive Turns (problem : Problem) (solver : Backend State)
    (statistics : Statistics) (start : State) :
    List Turn → Run → Dialogue State → Prop where
  | seeded {run : Run} (made : problem.seed statistics = .ok run) :
      Turns problem solver statistics start [] run (.start start)
  | turn {log : List Turn} {run next : Run} {batch : Batch PathState}
      {rest : Worklist PathState} {before after : Dialogue State}
      {ways : Option (List Departure)}
      (earlier : Turns problem solver statistics start log run before)
      (popped : run.worklist.pop? = some (batch, rest))
      (stepped : problem.step solver (run.leaving rest) batch before =
        (.ok (.continuing next), after))
      (takes : problem.Takes (run.leaving rest) batch ways next) :
      Turns problem solver statistics start
        (⟨run.leaving rest, batch, ways⟩ :: log) next after

variable {problem : Problem} {solver : Backend State} {statistics : Statistics}
  {start : State} {log : List Turn} {run next : Run}
  {batch : Batch PathState} {rest : Worklist PathState}
  {before after : Dialogue State} {ways : Option (List Departure)}

/-! ## One turn -/

theorem moves_of_step
    (stepped : problem.step solver run batch before =
      (.ok (.continuing next), after)) :
    problem.Moves solver before run batch next := by
  rcases step_eq_ok stepped with ⟨_, same, moves⟩ | ⟨_, _, other, _⟩
  · cases same
    exact moves
  · cases other

/-- The loop makes the calls of its steps, however many rounds it has. -/
theorem Searched.callsOnly_drain
    {Allowed : Interaction → Prop}
    (steps : ∀ {run batch rest}, problem.Searched solver run →
      run.worklist.pop? = some (batch, rest) →
      CallsOnly Allowed (problem.step solver (run.leaving rest) batch))
    (searched : problem.Searched solver run) (rounds : Nat) :
    CallsOnly Allowed (problem.drain solver rounds run) := by
  induction rounds generalizing run with
  | zero => exact callsOnly_done _
  | succ rounds induction =>
      rw [drain]
      cases popped : run.worklist.pop? with
      | none => exact callsOnly_done _
      | some taken =>
          refine (steps searched popped).andThen
            fun progress before after stepped => ?_
          cases progress with
          | continuing next =>
              exact induction (.move searched popped (moves_of_step stepped))
          | finished report => exact callsOnly_done _

theorem prepare_eq_ok
    {graph : FlowGraph} {targets : List BlockId} {maxVisits : Nat}
    (prepared : Problem.prepare graph targets maxVisits =
      .ok (problem, statistics)) :
    problem = Problem.ofTargets graph targets maxVisits ∧
      statistics.droppedStates = 0 ∧ statistics.solverChecks = 0 ∧
      statistics.unknownChecks = 0 := by
  rw [Problem.prepare] at prepared
  split at prepared
  · simp at prepared
  · simp only [Except.ok.injEq, Prod.mk.injEq] at prepared
    rcases prepared with ⟨rfl, rfl⟩
    exact ⟨rfl, rfl, rfl, rfl⟩

/-- So does a search as a whole. -/
theorem callsOnly_explore
    {graph : FlowGraph} {targets : List BlockId} {maxVisits : Nat}
    {Allowed : Interaction → Prop}
    (steps : ∀ {run batch rest},
      (Problem.ofTargets graph targets maxVisits).Searched solver run →
      run.worklist.pop? = some (batch, rest) →
      CallsOnly Allowed ((Problem.ofTargets graph targets maxVisits).step solver
        (run.leaving rest) batch)) :
    CallsOnly Allowed (explore solver graph targets maxVisits) := by
  rw [explore]
  cases prepared : Problem.prepare graph targets maxVisits with
  | error violation => exact callsOnly_fail _
  | ok made =>
      rcases made with ⟨problem, statistics⟩
      rcases prepare_eq_ok prepared with ⟨rfl, _⟩
      simp only [Problem.search]
      split
      · cases seeded : (Problem.ofTargets graph targets maxVisits).seed
            statistics with
        | error violation => exact callsOnly_fail _
        | ok run =>
            have searched : (Problem.ofTargets graph targets maxVisits).Searched
                solver run := .start seeded
            exact searched.callsOnly_drain steps _
      · exact callsOnly_done _

/-- A turn that merges its batch. -/
structure Merges (problem : Problem) (run : Run) (batch : Batch PathState)
    (ways : Option (List Departure)) (next : Run) : Prop where
  fresh : run.merged.count batch.block < problem.maxVisits
  merged : next.merged = batch.block :: run.merged
  leaves : ∀ edges, ways = some edges →
    Leaves problem.graph batch.block (mergedVersions batch.states) edges
  worklist : next.worklist = (problem.queueAll (run.mergedState batch)
    (run.marker batch.block) (ways.getD []) (run.afterMerge batch)).worklist
  dropped : next.statistics.droppedStates = run.statistics.droppedStates
  checks : next.statistics.solverChecks = run.statistics.solverChecks +
    if batch.block ∈ problem.targets then 1 else 0

/-- A turn drops its batch, or merges it. -/
theorem Takes.dropped_or_merges
    (takes : problem.Takes run batch ways next) :
    (problem.maxVisits ≤ run.merged.count batch.block ∧ ways = none ∧
      next = run.drop batch.states.length) ∨
    problem.Merges run batch ways next := by
  cases takes with
  | dropped spent => exact Or.inl ⟨spent, rfl, rfl⟩
  | refuted fresh target =>
      exact Or.inr ⟨fresh, rfl, by simp, rfl, rfl, by
        rw [if_pos target]
        rfl⟩
  | passed fresh inner leaves =>
      refine Or.inr ⟨fresh, queueAll_merged _, ?_, rfl, ?_, ?_⟩
      · rintro _ ⟨rfl⟩
        exact leaves
      · rw [queueAll_statistics]
        rfl
      · rw [queueAll_statistics, if_neg inner]
        rfl
  | undecided fresh target leaves =>
      refine Or.inr ⟨fresh, queueAll_merged _, ?_,
        queueAll_worklist_congr (by rfl) _, ?_, ?_⟩
      · rintro _ ⟨rfl⟩
        exact leaves
      · rw [queueAll_statistics]
        rfl
      · rw [queueAll_statistics, if_pos target]
        rfl

/--
A step takes the batch and goes on, and counts an undecided check only with a
verdict to that effect; or it finds a witness at a target, and has counted the
check.
-/
theorem step_cases
    {progress : Progress}
    (stepped : problem.step solver run batch before = (.ok progress, after)) :
    (∃ ways next, progress = .continuing next ∧
      problem.Takes run batch ways next ∧
      (next.statistics.unknownChecks = run.statistics.unknownChecks ∨
        ∃ call ∈ after.calls, call.verdict? = some .unknown)) ∨
    (run.merged.count batch.block < problem.maxVisits ∧
      batch.block ∈ problem.targets ∧ ∃ witness, progress =
        .finished ⟨.reachable witness,
          (run.afterMerge batch).countCheck.statistics⟩) := by
  rcases Nat.lt_or_ge (run.merged.count batch.block) problem.maxVisits with
    fresh | spent
  · by_cases target : batch.block ∈ problem.targets
    · rw [step_of_target solver fresh target] at stepped
      rcases andThen_eq_ok stepped with ⟨answer, middle, asked, concluded⟩
      cases answer with
      | reached witness =>
          simp only [conclude, done, Prod.mk.injEq, Except.ok.injEq]
            at concluded
          exact Or.inr ⟨fresh, target, witness, concluded.1.symm⟩
      | refuted =>
          simp only [conclude, done, Prod.mk.injEq, Except.ok.injEq]
            at concluded
          exact Or.inl ⟨_, _, concluded.1.symm, .refuted fresh target,
            Or.inl rfl⟩
      | undecided =>
          have kept := (callsOnly_proceed _ _ _).suffix concluded
          rcases exists_unknown_of_undecided asked with
            ⟨call, member, unknown⟩
          rcases proceed_eq_ok concluded with ⟨edges, leaves, same⟩
          rw [Run.mergedState, mergeStates_block, mergeStates_versions]
            at leaves
          exact Or.inl ⟨_, _, same, .undecided fresh target leaves,
            Or.inr ⟨call, kept.subset member, unknown⟩⟩
    · rw [step_of_inner solver fresh target] at stepped
      rcases proceed_eq_ok stepped with ⟨edges, leaves, same⟩
      rw [Run.mergedState, mergeStates_block, mergeStates_versions] at leaves
      refine Or.inl ⟨_, _, same, .passed fresh target leaves, Or.inl ?_⟩
      rw [queueAll_statistics]
      rfl
  · rw [step_of_spent solver spent] at stepped
    simp only [done, Prod.mk.injEq, Except.ok.injEq] at stepped
    exact Or.inl ⟨_, _, stepped.1.symm, .dropped spent, Or.inl rfl⟩

theorem step_eq_continuing
    (stepped : problem.step solver run batch before =
      (.ok (.continuing next), after)) :
    ∃ ways, problem.Takes run batch ways next ∧
      (next.statistics.unknownChecks = run.statistics.unknownChecks ∨
        ∃ call ∈ after.calls, call.verdict? = some .unknown) := by
  rcases step_cases stepped with ⟨ways, _, same, takes, checks⟩ |
    ⟨_, _, _, other⟩
  · cases same
    exact ⟨ways, takes, checks⟩
  · cases other

theorem step_eq_finished
    {report : Report}
    (stepped : problem.step solver run batch before =
      (.ok (.finished report), after)) :
    run.merged.count batch.block < problem.maxVisits ∧
      batch.block ∈ problem.targets ∧ ∃ witness, report =
        ⟨.reachable witness,
          (run.afterMerge batch).countCheck.statistics⟩ := by
  rcases step_cases stepped with ⟨_, _, other, _⟩ |
    ⟨fresh, target, witness, same⟩
  · cases other
  · cases same
    exact ⟨fresh, target, witness, rfl⟩

/-! ## All turns -/

theorem Turns.searched
    (turns : problem.Turns solver statistics start log run after) :
    problem.Searched solver run := by
  induction turns with
  | seeded made => exact .start made
  | turn _ popped stepped _ induction =>
      exact .move induction popped (moves_of_step stepped)

theorem Turns.exists_unknown
    (turns : problem.Turns solver statistics start log run after)
    (zero : statistics.unknownChecks = 0)
    (undecided : run.statistics.unknownChecks ≠ 0) :
    ∃ call ∈ after.calls, call.verdict? = some .unknown := by
  induction turns with
  | seeded made =>
      rcases seed_eq_ok made with ⟨_, _, _, rfl⟩
      rw [enqueue_statistics] at undecided
      exact absurd zero undecided
  | turn _ _ stepped _ induction =>
      rcases step_eq_continuing stepped with ⟨_, _, same | found⟩
      · rw [same] at undecided
        rcases induction undecided with ⟨call, member, unknown⟩
        have kept := (callsOnly_step solver _ _).suffix stepped
        exact ⟨call, kept.subset member, unknown⟩
      · exact found

/-! ## The end of a log -/

/-- How a search that has a report comes to it. -/
inductive Concludes (problem : Problem) (solver : Backend State)
    (statistics : Statistics) (start : State) :
    Report → Dialogue State → Prop where
  | exhausted {log : List Turn} {last : Run} {after : Dialogue State}
      (turns : problem.Turns solver statistics start log last after)
      (empty : last.worklist.batches = []) :
      Concludes problem solver statistics start last.exhausted after
  | finished {log : List Turn} {last : Run} {batch : Batch PathState}
      {rest : Worklist PathState} {before after : Dialogue State}
      {report : Report}
      (turns : problem.Turns solver statistics start log last before)
      (popped : last.worklist.pop? = some (batch, rest))
      (stepped : problem.step solver (last.leaving rest) batch before =
        (.ok (.finished report), after)) :
      Concludes problem solver statistics start report after

/-- A search that reaches a target does so with the batch it takes last. -/
theorem Concludes.of_reachable
    {report : Report} {witness : Witness}
    (concludes : problem.Concludes solver statistics start report after)
    (reached : report.outcome = .reachable witness) :
    ∃ log last before batch rest,
      problem.Turns solver statistics start log last before ∧
      last.worklist.pop? = some (batch, rest) ∧
      problem.step solver (last.leaving rest) batch before =
        (.ok (.finished report), after) := by
  cases concludes with
  | exhausted turns empty =>
      rw [Run.exhausted] at reached
      split at reached
      · simp at reached
      · simp at reached
  | finished turns popped stepped =>
      exact ⟨_, _, _, _, _, turns, popped, stepped⟩

/--
How a search ends, with the log of all its turns: nothing waits any more, or
the step with the batch taken last has the answer or fails.
-/
inductive Stops (problem : Problem) (solver : Backend State)
    (statistics : Statistics) (start : State) :
    List Turn → Except Failure Report → Dialogue State → Prop where
  | exhausted {log : List Turn} {last : Run} {after : Dialogue State}
      (turns : problem.Turns solver statistics start log last after)
      (empty : last.worklist.batches = []) :
      Stops problem solver statistics start log (.ok last.exhausted) after
  | finished {log : List Turn} {last : Run} {batch : Batch PathState}
      {rest : Worklist PathState} {before after : Dialogue State}
      {report : Report}
      (turns : problem.Turns solver statistics start log last before)
      (popped : last.worklist.pop? = some (batch, rest))
      (stepped : problem.step solver (last.leaving rest) batch before =
        (.ok (.finished report), after)) :
      Stops problem solver statistics start
        (⟨last.leaving rest, batch, none⟩ :: log) (.ok report) after
  | failed {log : List Turn} {last : Run} {batch : Batch PathState}
      {rest : Worklist PathState} {before after : Dialogue State}
      {failure : Failure}
      (turns : problem.Turns solver statistics start log last before)
      (popped : last.worklist.pop? = some (batch, rest))
      (stepped : problem.step solver (last.leaving rest) batch before =
        (.error failure, after)) :
      Stops problem solver statistics start
        (⟨last.leaving rest, batch, none⟩ :: log) (.error failure) after

/-- With rounds enough, the loop goes on until it stops by itself. -/
theorem drain_stops
    {rounds : Nat} {result : Except Failure Report}
    (turns : problem.Turns solver statistics start log run before)
    (affords : problem.Affords rounds run)
    (drained : problem.drain solver rounds run before = (result, after)) :
    ∃ whole, problem.Stops solver statistics start whole result after := by
  induction rounds generalizing log run before with
  | zero =>
      have merges := turns.searched.tidy.length_merged_le
      have empty : run.worklist.batches = [] := by
        rw [Affords] at affords
        exact List.length_eq_zero_iff.mp (by omega)
      simp only [drain, done, Prod.mk.injEq] at drained
      rcases drained with ⟨rfl, rfl⟩
      exact ⟨log, .exhausted turns empty⟩
  | succ rounds induction =>
      rw [drain] at drained
      cases popped : run.worklist.pop? with
      | none =>
          simp only [popped, done, Prod.mk.injEq] at drained
          rcases drained with ⟨rfl, rfl⟩
          exact ⟨log, .exhausted turns (Worklist.pop?_eq_none popped)⟩
      | some taken =>
          rcases taken with ⟨batch, rest⟩
          rw [popped] at drained
          cases result with
          | error failure =>
              rcases andThen_eq_error drained with
                stepped | ⟨progress, middle, stepped, further⟩
              · exact ⟨_, .failed turns popped stepped⟩
              · cases progress with
                | continuing next =>
                    rcases step_eq_continuing stepped with ⟨ways, takes, _⟩
                    exact induction (.turn turns popped stepped takes)
                      ((moves_of_step stepped).affords popped affords) further
                | finished found => simp [done] at further
          | ok report =>
              rcases andThen_eq_ok drained with
                ⟨progress, middle, stepped, further⟩
              cases progress with
              | continuing next =>
                  rcases step_eq_continuing stepped with ⟨ways, takes, _⟩
                  exact induction (.turn turns popped stepped takes)
                    ((moves_of_step stepped).affords popped affords) further
              | finished found =>
                  simp only [done, Prod.mk.injEq, Except.ok.injEq] at further
                  rcases further with ⟨rfl, rfl⟩
                  exact ⟨_, .finished turns popped stepped⟩

theorem Stops.concludes
    {report : Report}
    (stops : problem.Stops solver statistics start log (.ok report) after) :
    problem.Concludes solver statistics start report after := by
  cases stops with
  | exhausted turns empty => exact .exhausted turns empty
  | finished turns popped stepped => exact .finished turns popped stepped

theorem drain_concludes
    {rounds : Nat} {report : Report}
    (turns : problem.Turns solver statistics start log run before)
    (affords : problem.Affords rounds run)
    (drained : problem.drain solver rounds run before = (.ok report, after)) :
    problem.Concludes solver statistics start report after := by
  rcases drain_stops turns affords drained with ⟨_, stops⟩
  exact stops.concludes

/-- A search has nothing to look at, or concludes from its log. -/
theorem search_concludes
    {report : Report}
    (searched : problem.search solver statistics (.start start) =
      (.ok report, after)) :
    report = ⟨.unreachable, statistics⟩ ∨
      problem.Concludes solver statistics start report after := by
  rw [search] at searched
  split at searched
  · cases seeded : problem.seed statistics with
    | error violation => simp [seeded, fail] at searched
    | ok run =>
        rw [seeded] at searched
        exact Or.inr
          (drain_concludes (.seeded seeded) (affords_seed seeded) searched)
  · simp only [done, Prod.mk.injEq, Except.ok.injEq] at searched
    exact Or.inl searched.1.symm

end Problem

/-! ## The log of a whole search -/

/-- The counters of a search that has done no more than prune. -/
def Statistics.atStart (graph : FlowGraph) (targets : List BlockId) :
    Statistics :=
  ⟨graph.size - (graph.blocksReaching targets).length,
    (graph.blocksReaching targets).length, 0, 0, 0, 0, 0⟩

/--
What a search comes to, with the log of its turns and the dialogue at its end.
It takes no turn if a target belongs to another graph, if the entry has no
rank, or if a parameter has no symbol.
-/
inductive Explored (solver : Backend State) (graph : FlowGraph)
    (targets : List BlockId) (maxVisits : Nat) (start : State) :
    List Turn → Except Failure Report → Dialogue State → Prop where
  | foreign {target : BlockId}
      (found : targets.find? (fun target => !graph.contains target) =
        some target) :
      Explored solver graph targets maxVisits start []
        (.error (.contract (.foreignTarget target))) (.start start)
  | unranked
      (outside : graph.entry ∉
        graph.rankedBlocks (graph.blocksReaching targets)) :
      Explored solver graph targets maxVisits start []
        (.ok ⟨.unreachable, .atStart graph targets⟩) (.start start)
  | unseeded {violation : ContractViolation}
      (entered : graph.entry ∈
        graph.rankedBlocks (graph.blocksReaching targets))
      (violated : (Problem.ofTargets graph targets maxVisits).seed
        (.atStart graph targets) = .error violation) :
      Explored solver graph targets maxVisits start []
        (.error (.contract violation)) (.start start)
  | searched {log : List Turn} {result : Except Failure Report}
      {after : Dialogue State}
      (entered : graph.entry ∈
        graph.rankedBlocks (graph.blocksReaching targets))
      (stops : (Problem.ofTargets graph targets maxVisits).Stops solver
        (.atStart graph targets) start log result after) :
      Explored solver graph targets maxVisits start log result after

theorem find?_foreign
    {graph : FlowGraph} {targets : List BlockId}
    (own : ∀ target ∈ targets, graph.contains target = true) :
    targets.find? (fun target => !graph.contains target) = none := by
  simpa using own

theorem explore_eq_search
    (solver : Backend State) {graph : FlowGraph} {targets : List BlockId}
    (own : targets.find? (fun target => !graph.contains target) = none)
    (maxVisits : Nat) :
    explore solver graph targets maxVisits =
      (Problem.ofTargets graph targets maxVisits).search solver
        (.atStart graph targets) := by
  rw [explore, Problem.prepare, own]
  rfl

/-- Every search has a log. -/
theorem exists_explored
    (solver : Backend State) (graph : FlowGraph) (targets : List BlockId)
    (maxVisits : Nat) (start : State) :
    ∃ log, Explored solver graph targets maxVisits start log
      (explore solver graph targets maxVisits (.start start)).1
      (explore solver graph targets maxVisits (.start start)).2 := by
  cases found : targets.find? (fun target => !graph.contains target) with
  | some target =>
      rw [explore, Problem.prepare, found]
      exact ⟨[], .foreign found⟩
  | none =>
      rw [explore_eq_search solver found, Problem.search]
      split
      · next contained =>
          have entered : graph.entry ∈
              graph.rankedBlocks (graph.blocksReaching targets) := by
            simpa [Problem.ofTargets] using contained
          cases seeded : (Problem.ofTargets graph targets maxVisits).seed
              (.atStart graph targets) with
          | error violation => exact ⟨[], .unseeded entered seeded⟩
          | ok run =>
              rcases Problem.drain_stops (.seeded seeded)
                (Problem.affords_seed seeded) rfl with ⟨log, stops⟩
              exact ⟨log, .searched entered stops⟩
      · next notContained =>
          exact ⟨[], .unranked
            (by simpa [Problem.ofTargets] using notContained)⟩

end FlowWitness.Exploration
