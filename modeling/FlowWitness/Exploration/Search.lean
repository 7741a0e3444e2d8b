import FlowWitness.Exploration.Outcome
import FlowWitness.Exploration.PathState
import FlowWitness.Exploration.Worklist
import FlowWitness.Graph.Pruning
import FlowWitness.Graph.Ranking
import FlowWitness.Solver.Dialogue

/-!
# Search

Is any target reachable from the entry, and with which parameter values?

Blocks that cannot reach a target are pruned and the others ranked.  From a
seed state at the entry, the search takes all states queued at the lowest
rank, merges them, and, if their block is a target, asks the solver: a model
ends the search, a refutation drops the state, and anything else is noted.
It then encodes the block and queues states for its successors.

A block is merged at most a fixed number of times, so the search ends.  If
nothing is left, no target is reachable, unless a check was undecided or a
state was dropped for the bound.
-/

namespace FlowWitness.Exploration

open FlowWitness.Graph
open FlowWitness.Program
open FlowWitness.Smt
open FlowWitness.Solver

/-! ## Problems and runs -/

/-- What stays fixed during a search. -/
structure Problem where
  graph : FlowGraph
  targets : List BlockId
  ranked : List BlockId
  maxVisits : Nat
  deriving DecidableEq, Repr

/--
What changes during a search: the states that wait, the blocks merged so far
with the latest first, the counters, and the supply of node numbers.
-/
structure Run where
  worklist : Worklist PathState
  merged : List BlockId
  statistics : Statistics
  supply : Nat
  deriving DecidableEq, Repr

/-- The result of a search with its counters. -/
structure Report where
  outcome : Outcome
  statistics : Statistics
  deriving DecidableEq, Repr

namespace Problem

/-- Prune and rank; every target must be a block of the graph. -/
def prepare (graph : FlowGraph) (targets : List BlockId) (maxVisits : Nat) :
    Except ContractViolation (Problem × Statistics) :=
  match targets.find? (fun target => !graph.contains target) with
  | some foreign => .error (.foreignTarget foreign)
  | none =>
    let retained := graph.blocksReaching targets
    .ok (⟨graph, targets, graph.rankedBlocks retained, maxVisits⟩,
      ⟨graph.size - retained.length, retained.length, 0, 0, 0, 0, 0⟩)

/-- Version zero of every parameter. -/
def seedVersions :
    List Variable → VersionMap → Except ContractViolation VersionMap
  | [], versions => .ok versions
  | parameter :: rest, versions =>
    match keyOf parameter with
    | .ok key => seedVersions rest (versions.insert key 0)
    | .error violation => .error violation

/-- Queue a state, if its block is ranked. -/
def enqueue (problem : Problem) (run : Run) (state : PathState) : Run :=
  match rankOf? problem.ranked state.block with
  | some rank =>
    { run with worklist := run.worklist.push rank state.block state }
  | none => run

/-- The run at its start: the seed state waits at the entry. -/
def seed (problem : Problem) (statistics : Statistics) :
    Except ContractViolation Run :=
  match seedVersions problem.graph.parameters .empty with
  | .ok versions =>
    .ok (problem.enqueue ⟨.empty, [], statistics, 0⟩
      (.seed problem.graph.entry versions))
  | .error violation => .error violation

/-! ## Advancing over a block -/

/-- Queue the state that leaves a merged block along one edge. -/
def follow (problem : Problem) (state : PathState) (marker : Term)
    (run : Run) (next : BlockId) (condition : Term) (versions : VersionMap) :
    Run :=
  problem.enqueue run
    ⟨next, versions, state.conditions, some ⟨marker, condition, versions⟩⟩

/--
Encode a merged block and queue states for its successors.  The operation is
checked first, then the edges, then that the two agree.
-/
def advance (problem : Problem) (run : Run) (state : PathState)
    (marker : Term) : Except ContractViolation Run :=
  match encodeOperation state.block state.versions
    (problem.graph.operation? state.block) with
  | .error violation => .error violation
  | .ok encoded =>
    match problem.graph.successorShape state.block with
    | .error fault => .error (.topology fault)
    | .ok shape =>
      match shape, encoded.condition with
      | .none, none => .ok run
      | .unconditional next, none =>
        .ok (problem.follow state marker run next encoded.effect
          encoded.versions)
      | .branch onTrue onFalse, some condition =>
        let taken := Term.conjoin [condition, encoded.effect]
        let notTaken := Term.conjoin [.negation condition, encoded.effect]
        let afterTrue :=
          problem.follow state marker run onTrue taken encoded.versions
        .ok (problem.follow state marker afterTrue onFalse notTaken
          encoded.versions)
      | .branch _ _, none => .error (.branchWithoutCondition state.block)
      | .none, some _ => .error (.missingBranchTarget state.block)
      | .unconditional _, some _ => .error (.missingBranchTarget state.block)

end Problem

/-! ## Asking the solver -/

variable {State : Type}

/-- The value of one parameter in the model. -/
def parameterValue (solver : Backend State) (parameter : Variable) :
    Conversation State Constant :=
  match keyOf parameter with
  | .error violation => .fail (.contract violation)
  | .ok key =>
    let symbol := key.versioned 0
    .andThen (.evaluate solver symbol) (fun value =>
      match value.toConstant? parameter.dataType with
      | some constant => .done constant
      | none => .fail (.solver (.unexpectedResponse
          ("(get-value (" ++ symbol.text ++ "))") value.text)))

/-- The values of the parameters in the model, in order. -/
def parameterValues (solver : Backend State) :
    List Variable → Conversation State (List (Variable × Constant))
  | [] => .done []
  | parameter :: rest =>
    .andThen (parameterValue solver parameter) (fun constant =>
      .andThen (parameterValues solver rest) (fun values =>
        .done ((parameter, constant) :: values)))

/-- The answer for one target: a witness, or the verdict without one. -/
inductive TargetAnswer where
  | reached (witness : Witness)
  | refuted
  | undecided
  deriving DecidableEq, Repr

/-- Read the witness off the model, if there is one. -/
def answerFor (solver : Backend State) (parameters : List Variable) :
    Verdict → Conversation State TargetAnswer
  | .sat => .andThen (parameterValues solver parameters) (fun values =>
      .done (.reached ⟨values⟩))
  | .unsat => .done .refuted
  | .unknown => .done .undecided

/--
Ask in a session of its own whether the visit with this marker is possible
under the conditions.
-/
def askTarget (solver : Backend State) (parameters : List Variable)
    (conditions : List Term) (marker : Term) :
    Conversation State TargetAnswer :=
  .andThen (.openSession solver) (fun _ =>
    .andThen (.assertAll solver (conditions ++ [marker])) (fun _ =>
      .andThen (.checkSat solver) (fun verdict =>
        .andThen (answerFor solver parameters verdict) (fun answer =>
          .andThen (.closeSession solver) (fun _ => .done answer)))))

/-! ## The search -/

namespace Run

/-- Count the states of a batch as dropped. -/
def drop (run : Run) (arrivals : Nat) : Run :=
  { run with statistics :=
    { run.statistics with
      droppedStates := run.statistics.droppedStates + arrivals } }

/-- Count a merge of a block. -/
def countMerge (run : Run) (block : BlockId) (arrivals supply : Nat) : Run :=
  { run with
    merged := block :: run.merged
    supply := supply
    statistics :=
      { run.statistics with
        batches := run.statistics.batches + 1
        statesMerged := run.statistics.statesMerged + arrivals } }

/-- Count a solver check. -/
def countCheck (run : Run) : Run :=
  { run with statistics :=
    { run.statistics with solverChecks := run.statistics.solverChecks + 1 } }

/-- Count a check without a definite answer. -/
def countUndecided (run : Run) : Run :=
  { run with statistics :=
    { run.statistics with unknownChecks := run.statistics.unknownChecks + 1 } }

/-- What is known when nothing waits any more. -/
def exhausted (run : Run) : Report :=
  if 0 < run.statistics.unknownChecks ∨ 0 < run.statistics.droppedStates then
    ⟨.unknown, run.statistics⟩
  else ⟨.unreachable, run.statistics⟩

end Run

/-- After a batch, the search goes on or has its answer. -/
inductive Progress where
  | continuing (run : Run)
  | finished (report : Report)
  deriving DecidableEq, Repr

namespace Problem

/-- Go on past a merged block. -/
def proceed (problem : Problem) (run : Run) (state : PathState)
    (marker : Term) : Conversation State Progress :=
  match problem.advance run state marker with
  | .ok next => .done (.continuing next)
  | .error violation => .fail (.contract violation)

/-- Deal with a merged target by the solver's answer. -/
def conclude (problem : Problem) (run : Run) (state : PathState)
    (marker : Term) : TargetAnswer → Conversation State Progress
  | .reached witness =>
    .done (.finished ⟨.reachable witness, run.statistics⟩)
  | .refuted => .done (.continuing run)
  | .undecided => problem.proceed run.countUndecided state marker

/-- Deal with the states taken from the worklist at one rank. -/
def step (problem : Problem) (solver : Backend State) (run : Run)
    (batch : Batch PathState) : Conversation State Progress :=
  let arrivals := batch.states.length
  let visit := run.merged.count batch.block
  if problem.maxVisits ≤ visit then
    .done (.continuing (run.drop arrivals))
  else
    let marker := reachMarker batch.block visit
    let (state, supply) :=
      mergeStates run.supply batch.block marker batch.states
    let run := run.countMerge batch.block arrivals supply
    if problem.targets.contains batch.block then
      .andThen
        (askTarget solver problem.graph.parameters state.conditions.terms marker)
        (problem.conclude run.countCheck state marker)
    else problem.proceed run state marker

/-- Take batches until the search has its answer or nothing waits. -/
def drain (problem : Problem) (solver : Backend State) :
    (rounds : Nat) → Run → Conversation State Report
  | 0, run => .done run.exhausted
  | rounds + 1, run =>
    match run.worklist.pop? with
    | none => .done run.exhausted
    | some (batch, rest) =>
      .andThen (problem.step solver { run with worklist := rest } batch)
        (fun progress =>
          match progress with
          | .continuing next => problem.drain solver rounds next
          | .finished report => .done report)

/--
How many batches a search can take: one for the seed, and two for each merge,
of which every ranked block has as many as the bound allows.
-/
def maxRounds (problem : Problem) : Nat :=
  1 + 2 * problem.maxVisits * problem.ranked.length

/-- Search, unless the entry cannot reach a target at all. -/
def search (problem : Problem) (solver : Backend State)
    (statistics : Statistics) : Conversation State Report :=
  if problem.ranked.contains problem.graph.entry then
    match problem.seed statistics with
    | .ok run => problem.drain solver problem.maxRounds run
    | .error violation => .fail (.contract violation)
  else .done ⟨.unreachable, statistics⟩

end Problem

/-- Is any of the targets reachable from the entry of the graph? -/
def explore (solver : Backend State) (graph : FlowGraph)
    (targets : List BlockId) (maxVisits : Nat) : Conversation State Report :=
  match Problem.prepare graph targets maxVisits with
  | .ok (problem, statistics) => problem.search solver statistics
  | .error violation => .fail (.contract violation)

end FlowWitness.Exploration
