import FlowWitness.Proofs.Exploration.Sessions
import FlowWitness.Proofs.Exploration.SearchLog
import FlowWitness.Proofs.Graph.Resemblance

/-!
# Searches in lockstep

Two problems whose graphs look alike, and whose ranked blocks do the same, are
searched in lockstep: whatever the one search does with a batch, the other
does with the batch of the same place, and says the same to the solver.  The
blocks of a search differ from those of the other by the numbers of their
graphs only, and no term that the solver sees holds such a number.

Every step is taken at a ranked block, because nothing else is ever queued.
That is why the operations of other blocks do not matter.
-/

namespace FlowWitness

open FlowWitness.Graph
open FlowWitness.Program
open FlowWitness.Smt
open FlowWitness.Solver
open FlowWitness.Solver.Conversation

/-! ## Renamed violations and failures -/

/-- A contract violation with its handles renamed. -/
def Exploration.ContractViolation.renamed (rename : Nat → Nat) :
    ContractViolation → ContractViolation
  | .unsupportedOperation block kind =>
    .unsupportedOperation (block.renamed rename) kind
  | .unsupportedDataType dataType => .unsupportedDataType dataType
  | .illSorted expression fault => .illSorted expression fault
  | .branchWithoutCondition block =>
    .branchWithoutCondition (block.renamed rename)
  | .missingBranchTarget block => .missingBranchTarget (block.renamed rename)
  | .foreignTarget block => .foreignTarget (block.renamed rename)
  | .topology fault => .topology (fault.renamed rename)

/-- A failure with its handles renamed. -/
def Failure.renamed (rename : Nat → Nat) : Failure → Failure
  | .contract violation => .contract (violation.renamed rename)
  | .graph error => .graph (error.renamed rename)
  | .term error => .term error
  | .solver error => .solver error
  | .settings error => .settings error

namespace Exploration

/-- A violation that holds no handle. -/
def ContractViolation.Placeless (violation : ContractViolation) : Prop :=
  ∀ rename, violation.renamed rename = violation

theorem placeless_sortOf
    {dataType : DataType} {violation : ContractViolation}
    (failed : sortOf dataType = .error violation) : violation.Placeless := by
  unfold sortOf at failed
  split at failed
  · cases failed
  · split at failed
    · cases failed
    · cases failed
      exact fun _ => rfl
  · cases failed
    exact fun _ => rfl

theorem placeless_keyOf
    {target : Variable} {violation : ContractViolation}
    (failed : keyOf target = .error violation) : violation.Placeless := by
  unfold keyOf at failed
  split at failed
  · cases failed
  · next unsupported =>
      cases failed
      exact placeless_sortOf unsupported

theorem placeless_seedVersions
    {parameters : List Variable} {versions : VersionMap}
    {violation : ContractViolation}
    (failed : Problem.seedVersions parameters versions = .error violation) :
    violation.Placeless := by
  induction parameters generalizing versions with
  | nil => cases failed
  | cons parameter rest induction =>
      rw [Problem.seedVersions] at failed
      split at failed
      · exact induction failed
      · next unnamed =>
          cases failed
          exact placeless_keyOf unnamed

/-- What is wrong with an expression is wrong with it in every block. -/
theorem placeless_encodeExpression
    {versions : VersionMap} {expression : Expression}
    {violation : ContractViolation}
    (failed : encodeExpression versions expression = .error violation) :
    violation.Placeless := by
  induction expression with
  | var target =>
      rw [encodeExpression] at failed
      split at failed
      · cases failed
      · next unnamed =>
          cases failed
          exact placeless_keyOf unnamed
  | constant value =>
      rw [encodeExpression] at failed
      unfold encodeConstant at failed
      split at failed
      · cases failed
      · split at failed
        · cases failed
        · cases failed
          exact fun _ => rfl
        · next unsupported =>
            cases failed
            exact placeless_sortOf unsupported
  | unary operator operand induction =>
      rw [encodeExpression] at failed
      split at failed
      · rw [encodeUnary] at failed
        split at failed
        · cases failed
        · cases failed
          exact fun _ => rfl
      · next inside =>
          cases failed
          exact induction inside
  | binary operator left right inductionLeft inductionRight =>
      rw [encodeExpression] at failed
      split at failed
      · next inside =>
          cases failed
          exact inductionLeft inside
      · split at failed
        · next inside =>
            cases failed
            exact inductionRight inside
        · unfold encodeBinary at failed
          split at failed
          · split at failed
            · cases failed
            · cases failed
            · split at failed
              · cases failed
              · cases failed
                exact fun _ => rfl
          · cases failed
            exact fun _ => rfl

/-- An operation is encoded alike wherever it stands. -/
theorem encodeOperation_renamed
    (rename : Nat → Nat) (block : BlockId) (versions : VersionMap)
    (operation : Option Operation) :
    encodeOperation (block.renamed rename) versions operation =
      match encodeOperation block versions operation with
      | .ok encoded => .ok encoded
      | .error violation => .error (violation.renamed rename) := by
  match operation with
  | none => rfl
  | some (.call signature arguments results) => rfl
  | some (.jump condition) =>
      rw [encodeOperation, encodeOperation, encodeJump]
      cases encoded : encodeExpression versions condition with
      | error violation =>
          simp only [placeless_encodeExpression encoded rename]
      | ok term =>
          simp only
          split
          · rfl
          · rfl
  | some (.assign target value) =>
      rw [encodeOperation, encodeOperation, encodeAssignment]
      cases encoded : encodeExpression versions value with
      | error violation =>
          simp only [placeless_encodeExpression encoded rename]
      | ok term =>
          cases found : keyOf target with
          | error violation => simp only [placeless_keyOf found rename]
          | ok key =>
              simp only
              split
              · rfl
              · rfl

/-! ## Renamed runs -/

/-- A state on its way to the renamed block. -/
def PathState.renamed (rename : Nat → Nat) (state : PathState) : PathState :=
  { state with block := state.block.renamed rename }

/-- A batch at the renamed block. -/
def Batch.renamed (rename : Nat → Nat) (batch : Batch PathState) :
    Batch PathState :=
  ⟨batch.rank, batch.block.renamed rename,
    batch.states.map (PathState.renamed rename)⟩

/-- A worklist with its handles renamed. -/
def Worklist.renamed (rename : Nat → Nat) (worklist : Worklist PathState) :
    Worklist PathState :=
  ⟨worklist.batches.map (Batch.renamed rename), worklist.size⟩

/-- A run with its handles renamed. -/
def Run.renamed (rename : Nat → Nat) (run : Run) : Run :=
  { run with
    worklist := run.worklist.renamed rename
    merged := run.merged.map (BlockId.renamed rename) }

/-- A search in progress with its handles renamed; a report holds none. -/
def Progress.renamed (rename : Nat → Nat) : Progress → Progress
  | .continuing run => .continuing (run.renamed rename)
  | .finished report => .finished report

theorem Worklist.push_renamed
    (rename : Nat → Nat) (worklist : Worklist PathState) (rank : Nat)
    (state : PathState) :
    (worklist.renamed rename).push rank (state.block.renamed rename)
        (state.renamed rename) =
      (worklist.push rank state.block state).renamed rename := by
  have queued : ∀ batches : List (Batch PathState),
      enqueue rank (state.block.renamed rename) (state.renamed rename)
          (batches.map (Batch.renamed rename)) =
        (enqueue rank state.block state batches).map
          (Batch.renamed rename) := by
    intro batches
    induction batches with
    | nil => rfl
    | cons first rest induction =>
        rw [List.map_cons, enqueue, enqueue, induction]
        by_cases same : first.rank = rank
        · simp [Batch.renamed, same]
        · by_cases below : rank < first.rank
          · simp [Batch.renamed, same, below]
          · simp [Batch.renamed, same, below]
  rw [push, push, renamed, renamed, queued]

theorem Worklist.pop?_renamed
    (rename : Nat → Nat) (worklist : Worklist PathState) :
    (worklist.renamed rename).pop? =
      worklist.pop?.map (fun taken =>
        (taken.1.renamed rename, taken.2.renamed rename)) := by
  rcases worklist with ⟨_ | ⟨first, rest⟩, size⟩
  · rfl
  · simp [pop?, renamed, Batch.renamed]

/-- States merge into the same conditions, wherever they meet. -/
theorem mergeStates_renamed
    (rename : Nat → Nat) (supply : Nat) (block : BlockId) (marker : Term)
    (states : List PathState) :
    mergeStates supply (block.renamed rename) marker
        (states.map (PathState.renamed rename)) =
      ((mergeStates supply block marker states).1.renamed rename,
        (mergeStates supply block marker states).2) := by
  have versions : (states.map (PathState.renamed rename)).map
      PathState.versions = states.map PathState.versions := by
    rw [List.map_map]
    rfl
  have conditions : (states.map (PathState.renamed rename)).map
      PathState.conditions = states.map PathState.conditions := by
    rw [List.map_map]
    rfl
  have edges : (states.map (PathState.renamed rename)).filterMap
      PathState.pending = states.filterMap PathState.pending := by
    rw [List.filterMap_map]
    rfl
  simp only [mergeStates, versions, conditions, joinCondition?, edges]
  split
  · rfl
  · rfl

/-! ## Renamed conversations -/

section Conversations

variable {State Result Next : Type}

/-- The conversation with its result changed and its failure renamed. -/
def renamedBy (rename : Nat → Nat) (change : Result → Next)
    (conversation : Conversation State Result) : Conversation State Next :=
  fun dialogue =>
    match conversation dialogue with
    | (.ok result, after) => (.ok (change result), after)
    | (.error failure, after) => (.error (failure.renamed rename), after)

/-- Conversations that begin in lockstep and go on so stay in lockstep. -/
theorem andThen_eq_renamedBy
    {Given Taken : Type} {rename : Nat → Nat}
    {change : Result → Given} {finish : Next → Taken}
    {first : Conversation State Result} {second : Conversation State Given}
    {next : Result → Conversation State Next}
    {further : Given → Conversation State Taken} {dialogue : Dialogue State}
    (begins : second dialogue = renamedBy rename change first dialogue)
    (goesOn : ∀ result after, first dialogue = (.ok result, after) →
      further (change result) after =
        renamedBy rename finish (next result) after) :
    andThen second further dialogue =
      renamedBy rename finish (andThen first next) dialogue := by
  simp only [andThen, renamedBy, begins]
  rcases said : first dialogue with ⟨failure | result, after⟩
  · rfl
  · exact goesOn result after said

/-- A question fails for the solver's reasons, which hold no handle. -/
theorem askTarget_eq_renamedBy
    (solver : Backend State) (rename : Nat → Nat)
    {parameters : List Variable}
    (named : ∀ parameter ∈ parameters, ∃ key, keyOf parameter = .ok key)
    (conditions : List Term) (marker : Term) :
    askTarget solver parameters conditions marker =
      renamedBy rename (fun answer => answer)
        (askTarget solver parameters conditions marker) := by
  funext dialogue
  rw [renamedBy]
  rcases asked : askTarget solver parameters conditions marker dialogue with
    ⟨failure | answer, after⟩
  · rcases history_of_askTarget_eq_error named asked with ⟨_, breaks, _⟩
    rcases breaks.exists_solver with ⟨error, rfl⟩
    rfl
  · rfl

end Conversations

/-! ## Problems that look alike -/

namespace Problem

/--
The second problem looks like the first, after renaming, and its ranked blocks
do the same.
-/
structure Resembles (rename : Nat → Nat) (first second : Problem) : Prop where
  graph : first.graph.Resembles rename second.graph
  operations : ∀ block ∈ first.ranked,
    second.graph.operation? (block.renamed rename) =
      first.graph.operation? block
  targets : ∀ block,
    block.renamed rename ∈ second.targets ↔ block ∈ first.targets
  ranked : second.ranked = first.ranked.map (BlockId.renamed rename)
  maxVisits : second.maxVisits = first.maxVisits

namespace Resembles

variable {rename : Nat → Nat} {first second : Problem}

theorem enqueue
    (alike : Resembles rename first second) (run : Run) (state : PathState) :
    second.enqueue (run.renamed rename) (state.renamed rename) =
      (first.enqueue run state).renamed rename := by
  have rank : rankOf? second.ranked (state.renamed rename).block =
      rankOf? first.ranked state.block := by
    rw [alike.ranked]
    exact alike.graph.rankOf? first.ranked state.block
  rw [Problem.enqueue, Problem.enqueue, rank]
  split
  · next place _ =>
      have pushed := Worklist.push_renamed rename run.worklist place state
      simp only [Run.renamed, PathState.renamed] at pushed ⊢
      rw [pushed]
  · rfl

theorem follow
    (alike : Resembles rename first second) (state : PathState)
    (marker : Term) (run : Run) (next : BlockId) (condition : Term)
    (versions : VersionMap) :
    second.follow (state.renamed rename) marker (run.renamed rename)
        (next.renamed rename) condition versions =
      (first.follow state marker run next condition versions).renamed
        rename := by
  rw [Problem.follow, Problem.follow]
  exact alike.enqueue run
    ⟨next, versions, state.conditions, some ⟨marker, condition, versions⟩⟩

/-- Past a ranked block, both problems go on alike or fail alike. -/
theorem advance
    (alike : Resembles rename first second) (run : Run) {state : PathState}
    (ranked : state.block ∈ first.ranked) (marker : Term) :
    second.advance (run.renamed rename) (state.renamed rename) marker =
      match first.advance run state marker with
      | .ok next => .ok (next.renamed rename)
      | .error violation => .error (violation.renamed rename) := by
  have operation : second.graph.operation? (state.renamed rename).block =
      first.graph.operation? state.block := alike.operations _ ranked
  have encoding := encodeOperation_renamed rename state.block state.versions
    (first.graph.operation? state.block)
  have shapes := alike.graph.successorShape state.block
  rw [Problem.advance, Problem.advance, operation]
  simp only [PathState.renamed] at encoding shapes ⊢
  rw [encoding, shapes]
  cases encodeOperation state.block state.versions
      (first.graph.operation? state.block) with
  | error violation => rfl
  | ok encoded =>
      cases first.graph.successorShape state.block with
      | error fault => rfl
      | ok shape =>
          rcases encoded with ⟨_ | condition, effect, versions, minted⟩
          · cases shape with
            | none => rfl
            | unconditional next =>
                exact congrArg Except.ok
                  (alike.follow state marker run next effect versions)
            | branch onTrue onFalse => rfl
          · cases shape with
            | none => rfl
            | unconditional next => rfl
            | branch onTrue onFalse =>
                simp only [← alike.follow]
                rfl

theorem seed
    (alike : Resembles rename first second) (statistics : Statistics) :
    second.seed statistics =
      match first.seed statistics with
      | .ok run => .ok (run.renamed rename)
      | .error violation => .error (violation.renamed rename) := by
  rw [Problem.seed, Problem.seed, alike.graph.parameters]
  cases seeded : seedVersions first.graph.parameters .empty with
  | error violation => simp only [placeless_seedVersions seeded rename]
  | ok versions =>
      simp only
      rw [← alike.enqueue, alike.graph.entry]
      rfl

variable {State : Type}

theorem proceed
    (alike : Resembles rename first second) (run : Run) {state : PathState}
    (ranked : state.block ∈ first.ranked) (marker : Term) :
    (second.proceed (run.renamed rename) (state.renamed rename) marker :
        Conversation State Progress) =
      renamedBy rename (Progress.renamed rename)
        (first.proceed run state marker) := by
  rw [Problem.proceed, Problem.proceed, alike.advance run ranked]
  cases first.advance run state marker with
  | ok next => rfl
  | error violation => rfl

theorem count
    (alike : Resembles rename first second) (run : Run) (block : BlockId) :
    (run.renamed rename).merged.count (block.renamed rename) =
      run.merged.count block :=
  List.count_map_of_injective run.merged _
    (BlockId.renamed_injective alike.graph.injective) block

/-- A marker shows the place of its block, and not its graph. -/
theorem marker
    (alike : Resembles rename first second) (run : Run) (block : BlockId) :
    (run.renamed rename).marker (block.renamed rename) = run.marker block := by
  rw [Run.marker, Run.marker, alike.count]
  rfl

theorem merge
    (alike : Resembles rename first second) (run : Run)
    (batch : Batch PathState) :
    mergeStates run.supply (batch.block.renamed rename)
        ((run.renamed rename).marker (batch.block.renamed rename))
        (batch.states.map (PathState.renamed rename)) =
      ((run.mergedState batch).renamed rename,
        (run.afterMerge batch).supply) := by
  rw [alike.marker]
  exact mergeStates_renamed rename run.supply batch.block
    (run.marker batch.block) batch.states

theorem mergedState
    (alike : Resembles rename first second) (run : Run)
    (batch : Batch PathState) :
    (run.renamed rename).mergedState (batch.renamed rename) =
      (run.mergedState batch).renamed rename :=
  congrArg Prod.fst (alike.merge run batch)

theorem afterMerge
    (alike : Resembles rename first second) (run : Run)
    (batch : Batch PathState) :
    (run.renamed rename).afterMerge (batch.renamed rename) =
      (run.afterMerge batch).renamed rename := by
  have supply := congrArg Prod.snd (alike.merge run batch)
  simp only [Run.afterMerge, Batch.renamed, List.length_map]
  exact congrArg ((run.renamed rename).countMerge
    (batch.block.renamed rename) batch.states.length) supply

variable (solver : Backend State)

/-- With a batch at a ranked block, both problems take the same step. -/
theorem step
    (alike : Resembles rename first second)
    (named : ∀ parameter ∈ first.graph.parameters,
      ∃ key, keyOf parameter = .ok key)
    (run : Run) {batch : Batch PathState}
    (ranked : batch.block ∈ first.ranked) :
    second.step solver (run.renamed rename) (batch.renamed rename) =
      renamedBy rename (Progress.renamed rename)
        (first.step solver run batch) := by
  have visits := alike.count run batch.block
  have onward : (run.mergedState batch).block ∈ first.ranked := by
    rw [Run.mergedState, mergeStates_block]
    exact ranked
  rcases Nat.lt_or_ge (run.merged.count batch.block) first.maxVisits with
    fresh | spent
  · have freshToo : (run.renamed rename).merged.count
        (batch.renamed rename).block < second.maxVisits := by
      rw [alike.maxVisits]
      exact visits ▸ fresh
    by_cases target : batch.block ∈ first.targets
    · have targetToo : (batch.renamed rename).block ∈ second.targets :=
        (alike.targets batch.block).mpr target
      rw [step_of_target solver fresh target,
        step_of_target solver freshToo targetToo]
      have asks : second.ask solver (run.renamed rename)
          (batch.renamed rename) = renamedBy rename (fun answer => answer)
            (first.ask solver run batch) := by
        rw [Problem.ask, Problem.ask, alike.graph.parameters,
          alike.mergedState]
        have marker := alike.marker run batch.block
        rw [Batch.renamed, marker]
        exact askTarget_eq_renamedBy solver rename named _ _
      funext dialogue
      apply andThen_eq_renamedBy (congrFun asks dialogue)
      intro answer after _
      have marker := alike.marker run batch.block
      rw [alike.afterMerge, alike.mergedState, Batch.renamed, marker]
      cases answer with
      | reached witness => rfl
      | refuted => rfl
      | undecided =>
          exact congrFun (alike.proceed
            (run.afterMerge batch).countCheck.countUndecided onward
            (run.marker batch.block)) after
    · have innerToo : (batch.renamed rename).block ∉ second.targets :=
        fun member => target ((alike.targets batch.block).mp member)
      rw [step_of_inner solver fresh target,
        step_of_inner solver freshToo innerToo, alike.afterMerge,
        alike.mergedState]
      have marker := alike.marker run batch.block
      rw [Batch.renamed, marker]
      exact alike.proceed _ onward _
  · have spentToo : second.maxVisits ≤ (run.renamed rename).merged.count
        (batch.renamed rename).block := by
      rw [alike.maxVisits]
      exact visits ▸ spent
    rw [step_of_spent solver spent, step_of_spent solver spentToo]
    simp only [Batch.renamed, List.length_map]
    rfl

/-- Step by step, the loop does the same in both problems. -/
theorem drain
    (alike : Resembles rename first second)
    (named : ∀ parameter ∈ first.graph.parameters,
      ∃ key, keyOf parameter = .ok key)
    (rounds : Nat) {run : Run} (searched : first.Searched solver run)
    (dialogue : Dialogue State) :
    second.drain solver rounds (run.renamed rename) dialogue =
      renamedBy rename (fun report => report)
        (first.drain solver rounds run) dialogue := by
  induction rounds generalizing run dialogue with
  | zero => rfl
  | succ rounds induction =>
      have pops := Worklist.pop?_renamed rename run.worklist
      rw [Problem.drain, Problem.drain]
      change (run.renamed rename).worklist.pop? = _ at pops
      cases popped : run.worklist.pop? with
      | none =>
          rw [popped, Option.map_none] at pops
          rw [pops]
          rfl
      | some taken =>
          rcases taken with ⟨batch, rest⟩
          rw [popped, Option.map_some] at pops
          rw [pops]
          have ranked := mem_of_rankOf?
            (searched.tidy.filed_of_batch popped).placed
          apply andThen_eq_renamedBy
          · exact congrFun
              (alike.step solver named (run.leaving rest) ranked) dialogue
          · intro progress after stepped
            cases progress with
            | finished report => rfl
            | continuing next =>
                exact induction
                  (.move searched popped (moves_of_step stepped)) after

theorem search
    (alike : Resembles rename first second) (statistics : Statistics)
    (dialogue : Dialogue State) :
    second.search solver statistics dialogue =
      renamedBy rename (fun report => report)
        (first.search solver statistics) dialogue := by
  have rounds : second.maxRounds = first.maxRounds := by
    rw [maxRounds, maxRounds, alike.maxVisits, alike.ranked, List.length_map]
  rw [Problem.search, Problem.search, alike.ranked, alike.graph.entry,
    alike.graph.contains_map, alike.seed, rounds]
  split
  · cases seeded : first.seed statistics with
    | error violation => rfl
    | ok run =>
        exact alike.drain solver (exists_seed_iff.mp ⟨run, seeded⟩) _
          (.start seeded) dialogue
  · rfl

end Resembles

end Problem

/--
Graphs that look alike and whose ranked blocks do the same are explored alike,
if the targets have the same places.
-/
theorem explore_eq_renamedBy
    {State : Type} (solver : Backend State) {rename : Nat → Nat}
    {first second : FlowGraph} {firstTargets secondTargets : List BlockId}
    (alike : first.Resembles rename second)
    (firstOwn : ∀ target ∈ firstTargets, first.contains target = true)
    (secondOwn : ∀ target ∈ secondTargets, second.contains target = true)
    (targets : ∀ block,
      block.renamed rename ∈ secondTargets ↔ block ∈ firstTargets)
    (operations : ∀ block ∈
      first.rankedBlocks (first.blocksReaching firstTargets),
      second.operation? (block.renamed rename) = first.operation? block)
    (maxVisits : Nat) :
    explore solver second secondTargets maxVisits =
      renamedBy rename (fun report => report)
        (explore solver first firstTargets maxVisits) := by
  have retained := alike.blocksReaching targets
  have problems : (Problem.ofTargets first firstTargets maxVisits).Resembles
      rename (Problem.ofTargets second secondTargets maxVisits) :=
    { graph := alike
      operations := operations
      targets := targets
      ranked := by
        simp only [Problem.ofTargets, retained, alike.rankedBlocks]
      maxVisits := rfl }
  have statistics : Statistics.atStart second secondTargets =
      .atStart first firstTargets := by
    simp only [Statistics.atStart, retained, alike.size, List.length_map]
  rw [explore_eq_search solver (find?_foreign firstOwn),
    explore_eq_search solver (find?_foreign secondOwn), statistics]
  funext dialogue
  exact problems.search solver _ dialogue

end Exploration

end FlowWitness
