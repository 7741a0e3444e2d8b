import FlowWitness.Proofs.Exploration.Asking
import FlowWitness.Proofs.Exploration.SearchEnd
import FlowWitness.Proofs.Graph.Ranking

/-!
# Tracking a run through a search

A state tracks a configuration of the graph if it waits at its block and some
valuation explains it: the current versions have the values of the variables,
the state has arrived, and the conditions of *all* waiting states hold, since
any of them may be merged with the tracked one later.  This must survive
whatever the search does next, so it is asked of every valuation that agrees
with the first on the visits made and on the versions that the state knows.

A merge of other states is explained by not making their visit.  A merge of
the tracked state is explained by making it, with the merged versions
repeating the values of its own; and the step that the graph makes from there
is explained by the way out that it takes.  So a run that meets a target is
tracked from the entry on, until its states are dropped for the bound, or the
solver leaves a target undecided.
-/

namespace FlowWitness.Exploration

open FlowWitness.Graph
open FlowWitness.Program
open FlowWitness.Smt
open FlowWitness.Solver

/-! ## Explanations -/

/--
A valuation explains that the run of a search may be at a state: everything
that waits has its conditions satisfied, and the state has arrived, whatever
happens after the visits made and the versions of the state.
-/
def Explains (run : Run) (state : PathState) (valuation : Valuation) : Prop :=
  ∀ other, AgreesUpTo run.merged state.versions valuation other →
    (∀ waiting ∈ run.waiting, other.SatisfiesAll waiting.conditions.terms) ∧
      state.Arrives other

/-- A waiting state stands for a configuration of the graph. -/
structure Tracks (graph : FlowGraph) (run : Run) (state : PathState)
    (current : Configuration) : Prop where
  waits : state ∈ run.waiting
  located : state.block = current.block
  explained : ∃ valuation, Explains run state valuation ∧
    Environment.AgreeOn graph.mentioned current.environment
      (environmentOf valuation state.versions)

/-- The blocks of a search are blocks of its graph. -/
def Problem.Owned (problem : Problem) : Prop :=
  ∀ block ∈ problem.ranked, block.graph = problem.graph.id

section Merging

variable {problem : Problem} {run : Run} {batch : Batch PathState}
  {rest : Worklist PathState}

theorem Problem.Owned.sameGraph
    (owned : problem.Owned) (tidy : run.Tidy problem)
    (popped : run.worklist.pop? = some (batch, rest)) :
    ∀ block ∈ run.merged, block.graph = batch.block.graph := by
  intro block member
  have filed := tidy.filed_of_batch popped
  exact (owned block (tidy.ranked block member)).trans
    (owned batch.block (mem_of_rankOf? filed.placed)).symm

/-- The conditions of waiting states and a satisfied join make the merge. -/
theorem satisfiesAll_mergedState
    (tidy : run.Tidy problem)
    (popped : run.worklist.pop? = some (batch, rest))
    {valuation : Valuation}
    (waiting : ∀ state ∈ run.waiting,
      valuation.SatisfiesAll state.conditions.terms)
    (joined : ∀ join, joinCondition? (run.marker batch.block)
      (mergedVersions batch.states) batch.states = some join →
        valuation.Satisfies join) :
    valuation.SatisfiesAll
      ((run.leaving rest).mergedState batch).conditions.terms := by
  intro term member
  rcases ((tidy.mergedState_conditions popped).2 term).mp member with
    ⟨state, inside, inTerms⟩ | joins
  · exact waiting state (Run.Tidy.mem_waiting_of_batch popped inside) term
      inTerms
  · exact joined term joins

/-- A merge of other states is explained by not making their visit. -/
theorem Explains.elsewhere
    {state : PathState} {valuation : Valuation}
    (explains : Explains run state valuation)
    (tidy : run.Tidy problem) (owned : problem.Owned)
    (popped : run.worklist.pop? = some (batch, rest)) :
    ∃ changed, AgreesUpTo run.merged state.versions valuation changed ∧
      ∀ other,
        AgreesUpTo (batch.block :: run.merged) state.versions changed other →
        (∀ waiting ∈ run.waiting,
          other.SatisfiesAll waiting.conditions.terms) ∧
        other.SatisfiesAll
          ((run.leaving rest).mergedState batch).conditions.terms ∧
        state.Arrives other := by
  -- No visit made so far has this marker, so it can still be made false.
  let name := markerName batch.block (run.merged.count batch.block)
  have kept : AgreesUpTo run.merged state.versions valuation
      (valuation.withValue name (.bool false)) :=
    valuation.agreesUpTo_withMarker (owned.sameGraph tidy popped) _ false
  refine ⟨_, kept, ?_⟩
  intro other agreement
  rcases explains other (kept.trans
      (agreement.mono (fun _ => List.count_le_count_cons)
      (fun _ => Nat.le_refl _))) with
    ⟨waiting, arrives⟩
  refine ⟨waiting, ?_, arrives⟩
  apply satisfiesAll_mergedState tidy popped waiting
  intro join joins
  apply satisfies_join_of_not_marker (tidy.proper_of_batch popped)
    (isCondition_reachMarker _ _) joins
  rw [satisfies_reachMarker, agreement.markers _ _ (by simp)]
  simp [name, Valuation.withValue]

/--
A merge of the tracked state is explained by making the visit, with the
merged versions repeating the values of the state's own.
-/
theorem Explains.here
    {state : PathState} {valuation : Valuation}
    (explains : Explains run state valuation)
    (tidy : run.Tidy problem) (owned : problem.Owned)
    (popped : run.worklist.pop? = some (batch, rest))
    (member : state ∈ batch.states) :
    ∃ changed,
      (∀ target, (environmentOf changed (mergedVersions batch.states)).read
        target = (environmentOf valuation state.versions).read target) ∧
      ∀ other,
        AgreesUpTo (batch.block :: run.merged) (mergedVersions batch.states)
          changed other →
        (∀ waiting ∈ run.waiting,
          other.SatisfiesAll waiting.conditions.terms) ∧
        other.SatisfiesAll
          ((run.leaving rest).mergedState batch).conditions.terms ∧
        other.Satisfies (run.marker batch.block) := by
  let name := markerName batch.block (run.merged.count batch.block)
  -- Other states of the batch may have minted versions that this one has not.
  let repeated := valuation.delayed state.versions
  let changed := repeated.withValue name (.bool true)
  have below := get_le_mergedVersions member
  have marked : ∀ versions, AgreesUpTo run.merged versions repeated changed :=
    fun versions => repeated.agreesUpTo_withMarker
      (owned.sameGraph tidy popped) versions true
  have kept : AgreesUpTo run.merged state.versions valuation changed :=
    (valuation.agreesUpTo_delayed _ _).trans (marked _)
  refine ⟨changed, ?_, ?_⟩
  · intro target
    rw [(marked _).read_environmentOf target]
    exact valuation.read_environmentOf_delayed below target
  intro other agreement
  have earlier := agreement.mono (fun _ => List.count_le_count_cons) below
  rcases explains other (kept.trans earlier) with ⟨waiting, arrives⟩
  have same : SameValues other (mergedVersions batch.states)
      state.versions := by
    intro key
    calc
      other.read (key.versionName ((mergedVersions batch.states).get key))
          key.sort =
          changed.read (key.versionName
            ((mergedVersions batch.states).get key)) key.sort :=
        agreement.symbols key _ (Nat.le_refl _)
      _ = repeated.read (key.versionName
            ((mergedVersions batch.states).get key)) key.sort :=
        (marked _).symbols key _ (Nat.le_refl _)
      _ = valuation.read (key.versionName (state.versions.get key))
            key.sort := by
        rw [valuation.read_delayed, Nat.min_eq_right (below key)]
      _ = other.read (key.versionName (state.versions.get key)) key.sort :=
        ((kept.trans earlier).symbols key _ (Nat.le_refl _)).symm
  refine ⟨waiting, satisfiesAll_mergedState tidy popped waiting ?_, ?_⟩
  · intro join joins
    rcases tidy.seed_or_edges popped with ⟨versions, seed, _⟩ | edges
    · simp [seed, joinCondition?, PathState.seed] at joins
    · exact satisfies_join_of_arrives (tidy.proper_of_batch popped)
        (isCondition_reachMarker _ _) joins member (edges state member)
        arrives same
  · rw [Run.marker, satisfies_reachMarker, agreement.markers _ _ (by simp)]
    simp [changed, name, Valuation.withValue]

end Merging

/-! ## Steps -/

namespace Tracks

variable {State : Type} {solver : Backend State} {problem : Problem}
  {run next : Run} {batch : Batch PathState} {rest : Worklist PathState}
  {before : Dialogue State} {state : PathState} {current : Configuration}

/-- A state that is not taken goes on tracking. -/
theorem stays
    (tracks : Tracks problem.graph run state current)
    (tidy : run.Tidy problem) (owned : problem.Owned)
    (popped : run.worklist.pop? = some (batch, rest))
    (moves : problem.Moves solver before (run.leaving rest) batch next)
    (untaken : state ∈ rest.waiting) :
    Tracks problem.graph next state current := by
  rcases tracks with ⟨_, located, valuation, explains, agrees⟩
  rcases moves.effect with ⟨_, rfl⟩ | ⟨_, merged, _, edges, _, worklist⟩
  · refine ⟨untaken, located, valuation, ?_, agrees⟩
    intro other agreement
    rcases explains other agreement with ⟨waiting, arrives⟩
    exact ⟨fun waiter member =>
      waiting waiter (Run.Tidy.mem_waiting_of_rest popped member), arrives⟩
  · rcases explains.elsewhere tidy owned popped with
      ⟨changed, kept, explained⟩
    refine ⟨?_, located, changed, ?_, ?_⟩
    · rw [Run.waiting, worklist]
      exact Problem.waiting_subset_queueAll edges untaken
    · intro other agreement
      rw [merged] at agreement
      rcases explained other agreement with ⟨waiting, joined, arrives⟩
      refine ⟨?_, arrives⟩
      intro waiter member
      rw [Run.waiting, worklist] at member
      rcases Problem.mem_waiting_queueAll member with old | ⟨edge, _, rfl⟩
      · exact waiting waiter (Run.Tidy.mem_waiting_of_rest popped old)
      · exact joined
    · exact kept.agreeOn agrees

/-- The question about the batch of a tracking state has a model. -/
theorem satisfiable
    (tracks : Tracks problem.graph run state current)
    (tidy : run.Tidy problem) (owned : problem.Owned)
    (popped : run.worklist.pop? = some (batch, rest))
    (taken : state ∈ batch.states) :
    Satisfiable (((run.leaving rest).mergedState batch).conditions.terms ++
      [run.marker batch.block]) := by
  rcases tracks with ⟨_, _, valuation, explains, _⟩
  rcases explains.here tidy owned popped taken with ⟨changed, _, explained⟩
  rcases explained changed (.refl _ _ _) with ⟨_, joined, marked⟩
  refine ⟨changed, ?_⟩
  intro term member
  rcases List.mem_append.mp member with inside | same
  · exact joined term inside
  · rw [List.mem_singleton.mp same]
    exact marked

/-- Past a merged block, a way out tracks the step that the graph makes. -/
theorem advances
    (tracks : Tracks problem.graph run state current)
    (tidy : run.Tidy problem) (owned : problem.Owned)
    (wellNumbered : problem.graph.WellNumbered)
    (popped : run.worklist.pop? = some (batch, rest))
    (taken : state ∈ batch.states)
    {edges : List Departure}
    (leaves : Leaves problem.graph batch.block
      (mergedVersions batch.states) edges)
    (merged : next.merged = batch.block :: run.merged)
    (worklist : next.worklist =
      (problem.queueAll ((run.leaving rest).mergedState batch)
        (run.marker batch.block) edges
        ((run.leaving rest).afterMerge batch)).worklist)
    {after : Configuration}
    (moved : problem.graph.next? current = some after)
    (ranked : after.block ∈ problem.ranked) :
    ∃ further, Tracks problem.graph next further after := by
  rcases tracks with ⟨_, located, valuation, explains, agrees⟩
  have filed := tidy.filed_of_batch popped
  rcases explains.here tidy owned popped taken with
    ⟨changed, reads, explained⟩
  have here : current = ⟨batch.block, current.environment⟩ := by
    rw [← filed.gathered state taken, located]
  rw [here] at moved
  have agreesChanged : Environment.AgreeOn problem.graph.mentioned
      current.environment
      (environmentOf changed (mergedVersions batch.states)) :=
    fun target member => (agrees target member).trans (reads target).symm
  rcases leaves.exists_satisfied_of_next? wellNumbered agreesChanged moved
      (batch.block :: run.merged) with
    ⟨edge, inside, arrived, extended, kept, agreesAfter, taking⟩
  refine ⟨edge.state ((run.leaving rest).mergedState batch)
    (run.marker batch.block), ?_, arrived, extended, ?_, agreesAfter⟩
  · rw [Run.waiting, worklist]
    exact Problem.state_mem_queueAll inside (arrived ▸ ranked)
  · intro other agreement
    rw [merged] at agreement
    have holds := taking other agreement
    rcases explained other (kept.trans
        (agreement.mono (fun _ => Nat.le_refl _) (leaves.get_le inside))) with
      ⟨waiting, joined, marked⟩
    constructor
    · intro waiter member
      rw [Run.waiting, worklist] at member
      rcases Problem.mem_waiting_queueAll member with old | ⟨out, _, rfl⟩
      · exact waiting waiter (Run.Tidy.mem_waiting_of_rest popped old)
      · exact joined
    · intro pending same
      simp only [Departure.state, Option.some.injEq] at same
      subst pending
      exact ⟨marked, holds⟩

end Tracks

/-! ## The start -/

/-- Every first version with the value of its variable. -/
def initialValuation (graph : FlowGraph) (environment : Environment) :
    Valuation where
  truth name :=
    match graph.mentioned.find? (fun target =>
        currentName .empty target .bool == name) with
    | some target => environment.truth target
    | none => false
  word name width :=
    match graph.mentioned.find? (fun target =>
        currentName .empty target (.bitVec width) == name) with
    | some target => environment.word target width
    | none => 0

/-- The first version of a variable in the graph names that variable. -/
theorem find?_currentName
    {graph : FlowGraph} (wellNumbered : graph.WellNumbered)
    {target : Variable} (member : target ∈ graph.mentioned) (sort : SmtSort) :
    graph.mentioned.find? (fun other =>
      currentName .empty other sort == currentName .empty target sort) =
        some target := by
  cases found : graph.mentioned.find? (fun other =>
      currentName .empty other sort == currentName .empty target sort) with
  | none =>
      have absent := List.find?_eq_none.mp found target member
      simp at absent
  | some other =>
      have same := List.find?_some found
      rw [beq_iff_eq] at same
      have stems := (SymbolKey.versionName_injective same).1
      rw [eq_of_stem_eq wellNumbered (List.mem_of_find?_eq_some found) member
        stems]

theorem agreeOn_initialValuation
    {graph : FlowGraph} (wellNumbered : graph.WellNumbered)
    (environment : Environment)
    {versions : VersionMap} (zero : ∀ key, versions.get key = 0) :
    Environment.AgreeOn graph.mentioned environment
      (environmentOf (initialValuation graph environment) versions) := by
  intro target member
  have started : (environmentOf (initialValuation graph environment)
      versions).read target = (environmentOf
        (initialValuation graph environment) .empty).read target :=
    read_environmentOf_congr (fun key _ => by
      rw [zero key, VersionMap.get_empty])
  rw [started]
  cases shape : target.dataType with
  | boolean =>
      simp [Environment.read, shape, environmentOf, initialValuation,
        find?_currentName wellNumbered member]
  | integer signed bits =>
      simp [Environment.read, shape, environmentOf, initialValuation,
        find?_currentName wellNumbered member]
  | float exponentBits mantissaBits => simp [Environment.read, shape]

theorem Tracks.start
    {problem : Problem} {statistics : Statistics} {run : Run}
    (seeded : problem.seed statistics = .ok run)
    (wellNumbered : problem.graph.WellNumbered)
    (ranked : problem.graph.entry ∈ problem.ranked)
    (environment : Environment) :
    ∃ state, Tracks problem.graph run state
      (problem.graph.atEntry environment) := by
  rcases Problem.seed_eq_ok seeded with ⟨versions, _, zero, rfl⟩
  refine ⟨.seed problem.graph.entry versions,
    Problem.state_mem_enqueue ranked, rfl,
    initialValuation problem.graph environment, ?_,
    agreeOn_initialValuation wellNumbered environment zero⟩
  intro other _
  refine ⟨?_, by simp [PathState.Arrives, PathState.seed]⟩
  intro waiter member
  rcases Problem.mem_waiting_enqueue member with old | rfl
  · simp [Run.waiting, Worklist.waiting, Worklist.empty] at old
  · simp [Valuation.SatisfiesAll, PathState.seed, ConditionStack.terms,
      ConditionStack.empty]

/-! ## What becomes of a run -/

theorem Problem.owned_ofTargets
    (graph : FlowGraph) (targets : List BlockId) (maxVisits : Nat) :
    (Problem.ofTargets graph targets maxVisits).Owned := by
  intro block member
  have inside := FlowGraph.mem_blocks.mp
    (FlowGraph.mem_blocks_of_mem_rankedBlocks
      (FlowGraph.blocksReaching_subset targets) member)
  simp only [FlowGraph.contains, Bool.and_eq_true, beq_iff_eq] at inside
  exact inside.1

/-- A step toward a target leads from a ranked block to a ranked block. -/
theorem mem_rankedBlocks_of_meetsIn
    {graph : FlowGraph} {targets : List BlockId}
    (own : ∀ target ∈ targets, graph.contains target = true)
    {current after : Configuration}
    (ranked : current.block ∈
      graph.rankedBlocks (graph.blocksReaching targets))
    (moved : graph.next? current = some after)
    {steps : Nat} (meets : graph.MeetsIn targets steps after) :
    after.block ∈ graph.rankedBlocks (graph.blocksReaching targets) :=
  FlowGraph.successor_mem_rankedBlocks
    (FlowGraph.blocksReaching_subset targets) ranked
    (FlowGraph.next?_successor moved).2 (meets.mem_blocksReaching own)

theorem entry_mem_rankedBlocks_of_meetsIn
    {graph : FlowGraph} {targets : List BlockId}
    (own : ∀ target ∈ targets, graph.contains target = true)
    {environment : Environment} {steps : Nat}
    (meets : graph.MeetsIn targets steps (graph.atEntry environment)) :
    graph.entry ∈ graph.rankedBlocks (graph.blocksReaching targets) :=
  FlowGraph.entry_mem_rankedBlocks
    (FlowGraph.blocksReaching_subset targets)
    (meets.mem_blocksReaching own)

/--
The search takes a batch with a state that stands for a run of the graph
after so many steps, and drops it because the block has used up its visits.
-/
structure Problem.DropsAt {State : Type} (problem : Problem)
    (solver : Backend State) (start : Configuration) (passed : Nat)
    (run : Run) (batch : Batch PathState) (rest : Worklist PathState) :
    Prop where
  searched : problem.Searched solver run
  popped : run.worklist.pop? = some (batch, rest)
  spent : problem.maxVisits ≤ run.merged.count batch.block
  arrived : ∃ state ∈ batch.states, ∃ current,
    problem.graph.after passed start = some current ∧
      current.block = batch.block ∧ Tracks problem.graph run state current

/-- The solver leaves a target undecided. -/
structure Problem.WaversAt {State : Type} (problem : Problem)
    (solver : Backend State) (run : Run) (batch : Batch PathState)
    (rest : Worklist PathState) : Prop where
  searched : problem.Searched solver run
  popped : run.worklist.pop? = some (batch, rest)
  asked : ∃ before after, problem.ask solver (run.leaving rest) batch before =
    (.ok .undecided, after)

/-- What a search has made of a run that meets a target. -/
inductive Fate {State : Type} (problem : Problem) (solver : Backend State)
    (start : Configuration) (steps : Nat) (run : Run) : Prop where
  | tracked {passed left : Nat} {state : PathState} {current : Configuration}
      (split : passed + left = steps)
      (reached : problem.graph.after passed start = some current)
      (meets : problem.graph.MeetsIn problem.targets left current)
      (tracks : Tracks problem.graph run state current)
  | undecided (some : 0 < run.statistics.unknownChecks)
      (wavers : ∃ wavering batch rest,
        problem.WaversAt solver wavering batch rest)
  | dropped (some : 0 < run.statistics.droppedStates)
      (drops : ∃ passed run batch rest, passed ≤ steps ∧
        problem.DropsAt solver start passed run batch rest)

theorem Problem.Moves.counters
    {State : Type} {problem : Problem} {solver : Backend State}
    {before : Dialogue State} {run next : Run} {batch : Batch PathState}
    (moves : problem.Moves solver before run batch next) :
    run.statistics.unknownChecks ≤ next.statistics.unknownChecks ∧
      run.statistics.droppedStates ≤ next.statistics.droppedStates := by
  cases moves with
  | dropped spent => simp [Run.drop]
  | passed fresh inner leaves => simp [Run.afterMerge, Run.countMerge]
  | refuted fresh target asked =>
      simp [Run.afterMerge, Run.countMerge, Run.countCheck]
  | undecided fresh target asked leaves =>
      simp [Run.afterMerge, Run.countMerge, Run.countCheck,
        Run.countUndecided]

section Fates

variable {State : Type} {solver : Backend State} {graph : FlowGraph}
  {targets : List BlockId} {maxVisits : Nat} {start : Configuration}
  {steps : Nat}

/-- A move keeps a run tracked, drops it, or leaves a target undecided. -/
theorem Tracks.fate
    (sound : SoundUnsat solver)
    (wellNumbered : graph.WellNumbered)
    (own : ∀ target ∈ targets, graph.contains target = true)
    {run next : Run}
    (searched : (Problem.ofTargets graph targets maxVisits).Searched solver run)
    {batch : Batch PathState} {rest : Worklist PathState}
    {before : Dialogue State}
    (popped : run.worklist.pop? = some (batch, rest))
    (moves : (Problem.ofTargets graph targets maxVisits).Moves solver before
      (run.leaving rest) batch next)
    {passed left : Nat} {state : PathState} {current : Configuration}
    (split : passed + left = steps)
    (reached : graph.after passed start = some current)
    (meets : graph.MeetsIn targets left current)
    (tracks : Tracks graph run state current) :
    Fate (Problem.ofTargets graph targets maxVisits) solver start steps
      next := by
  have tidy := searched.tidy
  have owned := Problem.owned_ofTargets graph targets maxVisits
  rcases Run.Tidy.mem_batch_or_rest popped tracks.waits with taken | untaken
  case inr =>
    exact .tracked split reached meets
      (tracks.stays tidy owned popped moves untaken)
  have filed := tidy.filed_of_batch popped
  have here : current.block = batch.block := by
    rw [← tracks.located, filed.gathered state taken]
  -- The state itself is taken: the four moves decide what becomes of it.
  cases moves with
  | dropped spent =>
      have several := List.length_pos_iff.mpr filed.occupied
      exact .dropped (by simp [Run.drop, several])
        ⟨passed, run, batch, rest, by omega, searched, popped, spent, state,
          taken, current, reached, here, tracks⟩
  | passed fresh inner leaves =>
      cases left with
      | zero =>
          have target : current.block ∈ targets := meets
          exact (inner (here ▸ target)).elim
      | succ left =>
          rcases meets with ⟨_, after, moved, later⟩
          have ranked : current.block ∈
              graph.rankedBlocks (graph.blocksReaching targets) :=
            here ▸ mem_of_rankOf? filed.placed
          rcases tracks.advances tidy owned wellNumbered
              popped taken leaves
              (by simp [Run.afterMerge, Run.countMerge, Run.leaving]) rfl moved
              (mem_rankedBlocks_of_meetsIn own ranked moved later) with
            ⟨further, tracked⟩
          have splits : passed + 1 + left = steps := by omega
          exact .tracked splits
            ((FlowGraph.after_succ reached).trans moved) later tracked
  | refuted fresh target asked =>
      exact (not_satisfiable_of_refuted sound (tidy.isCondition_asked popped)
        asked (tracks.satisfiable tidy owned popped taken)).elim
  | undecided fresh target asked leaves =>
      exact .undecided (by simp [Run.countUndecided])
        ⟨run, batch, rest, searched, popped, _, _, asked⟩

/-- Throughout a search, a run that meets a target has one of these fates. -/
theorem Problem.Searched.fate
    (sound : SoundUnsat solver)
    (wellNumbered : graph.WellNumbered)
    (own : ∀ target ∈ targets, graph.contains target = true)
    (entered : graph.entry ∈ graph.rankedBlocks (graph.blocksReaching targets))
    {environment : Environment}
    (meets : graph.MeetsIn targets steps (graph.atEntry environment))
    {run : Run}
    (searched :
      (Problem.ofTargets graph targets maxVisits).Searched solver run) :
    Fate (Problem.ofTargets graph targets maxVisits) solver
      (graph.atEntry environment) steps run := by
  induction searched with
  | start seeded =>
      rcases Tracks.start seeded wellNumbered entered environment with
        ⟨state, tracks⟩
      exact .tracked (Nat.zero_add steps) rfl meets tracks
  | move searched popped moves induction =>
      rcases moves.counters with ⟨undecidedGrows, droppedGrows⟩
      cases induction with
      | tracked split reached meets tracks =>
          exact tracks.fate sound wellNumbered own searched popped moves split
            reached meets
      | undecided some wavers =>
          exact .undecided (Nat.lt_of_lt_of_le some undecidedGrows) wavers
      | dropped some drops =>
          exact .dropped (Nat.lt_of_lt_of_le some droppedGrows) drops

end Fates

/-- If nothing waits any more, the search does not know of the run. -/
theorem Fate.exhausted
    {State : Type} {problem : Problem} {solver : Backend State}
    {start : Configuration} {steps : Nat} {run : Run}
    (fate : Fate problem solver start steps run)
    (empty : run.worklist.batches = []) :
    run.exhausted = ⟨.unknown, run.statistics⟩ := by
  have lost : 0 < run.statistics.unknownChecks ∨
      0 < run.statistics.droppedStates := by
    cases fate with
    | tracked split reached meets tracks =>
        have waits := tracks.waits
        simp [Run.waiting, Worklist.waiting, empty] at waits
    | undecided some wavers => exact Or.inl some
    | dropped some drops => exact Or.inr some
  rw [Run.exhausted, if_pos lost]

end FlowWitness.Exploration
