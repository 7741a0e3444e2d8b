import FlowWitness.Proofs.Exploration.Coverage

/-!
# Contract violations

A search notices that its graph is malformed only when it comes to the block
at fault, over the versions that it brings along.  Yet what it finds is a
matter of the graph alone: the versions name the symbols of an encoding, and
have no say in whether there is one.

So a search of a graph without a malformed block, and with symbols for all its
parameters, violates no contract, whatever the solver answers.  And a search
that no verdict cuts short comes to every ranked block, so that a malformed
one among them is always found.
-/

namespace FlowWitness.Exploration

open FlowWitness.Graph
open FlowWitness.Program
open FlowWitness.Smt
open FlowWitness.Solver
open FlowWitness.Solver.Conversation

/-! ## Encodings over other versions -/

/-- Two encodings fail alike, or give terms of one sort. -/
inductive Alike :
    Except ContractViolation Term → Except ContractViolation Term → Prop where
  | failed (violation : ContractViolation) :
      Alike (.error violation) (.error violation)
  | sorted {first second : Term} (same : first.sort = second.sort) :
      Alike (.ok first) (.ok second)

theorem Alike.refl (encoded : Except ContractViolation Term) :
    Alike encoded encoded := by
  cases encoded with
  | error violation => exact .failed violation
  | ok term => exact .sorted rfl

theorem alike_encodeUnary
    {first second : Term} (same : first.sort = second.sort)
    (expression : Expression) (operator : UnaryOperator) :
    Alike (encodeUnary expression operator first)
      (encodeUnary expression operator second) := by
  rw [encodeUnary, encodeUnary, same]
  cases unaryFunction? operator second.sort with
  | none => exact .failed _
  | some function => exact .sorted (congrArg function.result same)

theorem alike_encodeBinary
    {left right otherLeft otherRight : Term}
    (sameLeft : left.sort = otherLeft.sort)
    (sameRight : right.sort = otherRight.sort)
    (expression : Expression) (operator : BinaryOperator) (signed : Bool) :
    Alike (encodeBinary expression operator signed left right)
      (encodeBinary expression operator signed otherLeft otherRight) := by
  simp only [encodeBinary.eq_def, sameLeft, sameRight]
  split
  · split
    · exact .sorted rfl
    · exact .sorted rfl
    · cases binaryFunction? signed operator otherLeft.sort with
      | none => exact .failed _
      | some function => exact .sorted (congrArg function.result sameLeft)
  · exact .failed _

/-- The sort of an encoded expression does not depend on the versions. -/
theorem alike_encodeExpression
    (versions others : VersionMap) (expression : Expression) :
    Alike (encodeExpression versions expression)
      (encodeExpression others expression) := by
  induction expression with
  | var target =>
      rw [encodeExpression, encodeExpression]
      cases keyOf target with
      | error violation => exact .failed violation
      | ok key => exact .sorted rfl
  | constant value => exact .refl _
  | unary operator operand alike =>
      rw [encodeExpression, encodeExpression]
      generalize encodeExpression versions operand = here at alike ⊢
      generalize encodeExpression others operand = there at alike ⊢
      cases alike with
      | failed violation => exact .failed violation
      | sorted same => exact alike_encodeUnary same _ _
  | binary operator left right alikeLeft alikeRight =>
      rw [encodeExpression, encodeExpression]
      generalize encodeExpression versions left = here at alikeLeft ⊢
      generalize encodeExpression others left = there at alikeLeft ⊢
      cases alikeLeft with
      | failed violation => exact .failed violation
      | sorted sameLeft =>
          generalize encodeExpression versions right = here at alikeRight ⊢
          generalize encodeExpression others right = there at alikeRight ⊢
          cases alikeRight with
          | failed violation => exact .failed violation
          | sorted sameRight => exact alike_encodeBinary sameLeft sameRight ..

/-- An operation that is rejected is rejected over all versions. -/
theorem encodeOperation_eq_error
    {versions : VersionMap} (others : VersionMap) {block : BlockId}
    {operation : Option Operation} {violation : ContractViolation}
    (rejected : encodeOperation block versions operation = .error violation) :
    encodeOperation block others operation = .error violation := by
  match operation with
  | none => cases rejected
  | some (.call signature arguments results) => exact rejected
  | some (.jump condition) =>
      have alike := alike_encodeExpression versions others condition
      rw [encodeOperation, encodeJump] at rejected ⊢
      generalize encodeExpression versions condition = here at alike rejected
      generalize encodeExpression others condition = there at alike ⊢
      cases alike with
      | failed violation => exact rejected
      | sorted same =>
          simp only [same] at rejected
          split at rejected
          · cases rejected
          · next refused => simpa [refused] using rejected
  | some (.assign target value) =>
      have alike := alike_encodeExpression versions others value
      rw [encodeOperation, encodeAssignment] at rejected ⊢
      generalize encodeExpression versions value = here at alike rejected
      generalize encodeExpression others value = there at alike ⊢
      cases alike with
      | failed violation => exact rejected
      | sorted same =>
          cases found : keyOf target with
          | error unsupported =>
              simp only [found] at rejected ⊢
              exact rejected
          | ok key =>
              simp only [found, same] at rejected ⊢
              split at rejected
              · cases rejected
              · next refused => simpa [refused] using rejected

/-! ## Malformed blocks -/

/-- The operation of the block is a jump. -/
def Jumps (graph : FlowGraph) (block : BlockId) : Prop :=
  ∃ condition, graph.operation? block = some (.jump condition)

/-- The edges out of the block are the two sides of a branch. -/
def Branches (graph : FlowGraph) (block : BlockId) : Prop :=
  ∃ onTrue onFalse, graph.successorShape block = .ok (.branch onTrue onFalse)

/--
A block that no search can go past: its operation is rejected, its edges have
no shape, or it is a branch without a jump or a jump without a branch.
-/
inductive Malformed (graph : FlowGraph) (versions : VersionMap)
    (block : BlockId) : Prop where
  | operation {violation : ContractViolation}
      (rejected : encodeOperation block versions (graph.operation? block) =
        .error violation) :
      Malformed graph versions block
  | edges {fault : GraphError}
      (rejected : graph.successorShape block = .error fault) :
      Malformed graph versions block
  | disagree (differ : ¬ (Jumps graph block ↔ Branches graph block)) :
      Malformed graph versions block

variable {graph : FlowGraph} {versions : VersionMap} {block : BlockId}

/-- Whether a block is malformed does not depend on the versions. -/
theorem Malformed.over
    (malformed : Malformed graph versions block) (others : VersionMap) :
    Malformed graph others block := by
  cases malformed with
  | operation rejected =>
      exact .operation (encodeOperation_eq_error others rejected)
  | edges rejected => exact .edges rejected
  | disagree differ => exact .disagree differ

/-- Only a jump has a condition. -/
theorem isSome_condition_iff
    {encoded : EncodedOperation}
    (done : encodeOperation block versions (graph.operation? block) =
      .ok encoded) :
    encoded.condition.isSome = true ↔ Jumps graph block := by
  rw [Jumps]
  cases performed : graph.operation? block with
  | none =>
      rw [performed] at done
      cases done
      simp [EncodedOperation.nothing]
  | some operation =>
      rw [performed] at done
      cases operation with
      | jump condition =>
          rcases encodeJump_eq_ok done with ⟨term, _, _, rfl⟩
          simp
      | assign target value =>
          rcases encodeAssignment_eq_ok done with ⟨term, key, _, _, _, rfl⟩
          simp
      | call signature arguments results => cases done

/-- With an encoding and a shape, all that can be wrong is that they differ. -/
theorem malformed_iff_of_ok
    {encoded : EncodedOperation} {shape : Successors}
    (done : encodeOperation block versions (graph.operation? block) =
      .ok encoded)
    (shaped : graph.successorShape block = .ok shape) :
    Malformed graph versions block ↔
      ¬ (Jumps graph block ↔ Branches graph block) := by
  constructor
  · intro malformed
    cases malformed with
    | operation rejected => simp [done] at rejected
    | edges rejected => simp [shaped] at rejected
    | disagree differ => exact differ
  · exact .disagree

instance : Decidable (Jumps graph block) :=
  match does : graph.operation? block with
  | some (.jump condition) => .isTrue ⟨condition, does⟩
  | none => .isFalse (by simp [Jumps, does])
  | some (.assign _ _) => .isFalse (by simp [Jumps, does])
  | some (.call _ _ _) => .isFalse (by simp [Jumps, does])

instance : Decidable (Branches graph block) :=
  match shaped : graph.successorShape block with
  | .ok (.branch onTrue onFalse) => .isTrue ⟨onTrue, onFalse, shaped⟩
  | .ok .none => .isFalse (by simp [Branches, shaped])
  | .ok (.unconditional _) => .isFalse (by simp [Branches, shaped])
  | .error _ => .isFalse (by simp [Branches, shaped])

instance : Decidable (Malformed graph versions block) :=
  match done : encodeOperation block versions (graph.operation? block),
    shaped : graph.successorShape block with
  | .error _, _ => .isTrue (.operation done)
  | .ok _, .error _ => .isTrue (.edges shaped)
  | .ok _, .ok _ => decidable_of_iff _ (malformed_iff_of_ok done shaped).symm

/-- The search goes past exactly the blocks that are not malformed. -/
theorem Problem.exists_advance_iff
    {problem : Problem} {run : Run} {source : PathState} {marker : Term} :
    (∃ next, problem.advance run source marker = .ok next) ↔
      ¬ Malformed problem.graph source.versions source.block := by
  rw [advance]
  cases done : encodeOperation source.block source.versions
      (problem.graph.operation? source.block) with
  | error violation =>
      exact iff_of_false (by simp) (not_not_intro (.operation done))
  | ok encoded =>
      cases shaped : problem.graph.successorShape source.block with
      | error fault =>
          exact iff_of_false (by simp) (not_not_intro (.edges shaped))
      | ok shape =>
          rw [malformed_iff_of_ok done shaped, not_not,
            ← isSome_condition_iff done, Branches, shaped]
          cases shape with
          | none => cases found : encoded.condition <;> simp [found]
          | unconditional onward =>
              cases found : encoded.condition <;> simp [found]
          | branch onTrue onFalse =>
              cases found : encoded.condition <;> simp [found]

/-! ## Turns past a block -/

/-- Every parameter has a sort. -/
def Supported (graph : FlowGraph) : Prop :=
  ∀ parameter ∈ graph.parameters, ∃ sort, sortOf parameter.dataType = .ok sort

theorem exists_keyOf_iff {parameter : Variable} :
    (∃ key, keyOf parameter = .ok key) ↔
      ∃ sort, sortOf parameter.dataType = .ok sort := by
  rw [keyOf]
  cases sortOf parameter.dataType with
  | ok sort => simp
  | error violation => simp

theorem not_supported_iff :
    ¬ Supported graph ↔ ∃ parameter ∈ graph.parameters,
      ∃ violation, sortOf parameter.dataType = .error violation := by
  rw [Supported]
  push Not
  refine exists_congr fun parameter => and_congr_right fun _ => ?_
  cases sortOf parameter.dataType with
  | ok sort => simp
  | error violation => simp

namespace Problem

variable {problem : Problem} {State : Type} {solver : Backend State}
  {statistics : Statistics} {start : State} {log : List Turn}
  {run next : Run} {batch : Batch PathState} {before after : Dialogue State}

theorem exists_seed_iff_supported :
    (∃ run, problem.seed statistics = .ok run) ↔ Supported problem.graph := by
  rw [exists_seed_iff]
  exact forall₂_congr fun _ _ => exists_keyOf_iff

theorem Turns.supported
    (turns : problem.Turns solver statistics start log run after) :
    Supported problem.graph :=
  fun parameter member => exists_keyOf_iff.mp (turns.named parameter member)

theorem not_malformed_of_proceed
    {source : PathState} {marker : Term} {progress : Progress}
    (proceeded : problem.proceed run source marker before =
      (.ok progress, after)) :
    ¬ Malformed problem.graph source.versions source.block := by
  cases moved : problem.advance run source marker with
  | ok next => exact exists_advance_iff.mp ⟨next, moved⟩
  | error violation => simp [proceed, moved, fail] at proceeded

/-- A step that goes on by the ways out has found the block well formed. -/
theorem not_malformed_of_step
    {edges : List Departure}
    (stepped : problem.step solver run batch before =
      (.ok (.continuing next), after))
    (takes : problem.Takes run batch (some edges) next) :
    ¬ Malformed problem.graph (mergedVersions batch.states) batch.block := by
  have here : ∀ {counted : Run} {progress : Progress}
      {middle after : Dialogue State},
      problem.proceed counted (run.mergedState batch) (run.marker batch.block)
        middle = (.ok progress, after) →
      ¬ Malformed problem.graph (mergedVersions batch.states)
        batch.block := by
    intro counted progress middle after proceeded
    have formed := not_malformed_of_proceed proceeded
    rwa [Run.mergedState, mergeStates_block, mergeStates_versions] at formed
  cases takes with
  | passed fresh inner leaves =>
      rw [step_of_inner solver fresh inner] at stepped
      exact here stepped
  | undecided fresh target leaves =>
      rw [step_of_target solver fresh target] at stepped
      rcases andThen_eq_ok stepped with ⟨answer, middle, asked, concluded⟩
      rcases counted_of_conclude concluded with ⟨missed, _, counted⟩
      rw [queueAll_statistics] at counted
      cases answer with
      | reached witness => exact absurd rfl missed
      | refuted => exact absurd counted (Nat.succ_ne_self _)
      | undecided => exact here concluded

theorem malformed_of_advance
    {marker : Term} {violation : ContractViolation}
    (refused : problem.advance run (next.mergedState batch) marker =
      .error violation) (versions : VersionMap) :
    Malformed problem.graph versions batch.block := by
  by_contra formed
  have block : (next.mergedState batch).block = batch.block :=
    mergeStates_block ..
  rcases exists_advance_iff.mpr fun malformed =>
    formed (block ▸ malformed.over versions) with ⟨after, moved⟩
  rw [moved] at refused
  cases refused

/-- No block that the search has gone past is malformed. -/
theorem Turns.not_malformed
    (turns : problem.Turns solver statistics start log run after) :
    ∀ turn ∈ log, turn.ways ≠ none → ∀ versions,
      ¬ Malformed problem.graph versions turn.block := by
  induction turns with
  | seeded made => simp
  | @turn _ _ _ _ _ _ _ ways earlier popped stepped takes induction =>
      rw [List.forall_mem_cons]
      refine ⟨fun gone versions malformed => ?_, induction⟩
      cases ways with
      | none => exact gone rfl
      | some edges =>
          exact not_malformed_of_step stepped takes (malformed.over _)

end Problem

/-! ## Searches -/

section Searches

variable {State : Type} {solver : Backend State} {targets : List BlockId}
  {maxVisits : Nat} {start : State} {log : List Turn} {run : Run}
  {after : Dialogue State}

/-- A search violates its contract only for a reason in the graph. -/
theorem Explored.exists_malformed
    (own : ∀ target ∈ targets, graph.contains target = true)
    {violation : ContractViolation}
    (explored : Explored solver graph targets maxVisits start log
      (.error (.contract violation)) after)
    (versions : VersionMap) :
    ¬ Supported graph ∨
      ∃ block ∈ graph.rankedBlocks (graph.blocksReaching targets),
        Malformed graph versions block := by
  cases explored with
  | foreign found =>
      rw [find?_foreign own] at found
      cases found
  | unseeded entered violated =>
      refine Or.inl fun supported => ?_
      have seeds : ∃ run, (Problem.ofTargets graph targets maxVisits).seed
          (.atStart graph targets) = .ok run :=
        Problem.exists_seed_iff_supported.mpr supported
      simp [violated] at seeds
  | searched entered stops =>
      cases stops with
      | failed turns popped stepped =>
          have filed := turns.searched.tidy.filed_of_batch popped
          rcases Problem.history_of_step_eq_error turns.named stepped with
            ⟨_, _, _, refused, _⟩ | ⟨_, _, breaks, _⟩
          · exact Or.inr ⟨_, mem_of_rankOf? filed.placed,
              Problem.malformed_of_advance refused versions⟩
          · rcases breaks.exists_solver with ⟨_, other⟩
            cases other

/--
If every verdict was undecided and nothing waits any more, the search has gone
past every ranked block, and none is malformed.
-/
theorem Problem.Turns.not_malformed_of_undecided
    (visits : 1 ≤ maxVisits)
    (entered : graph.entry ∈
      graph.rankedBlocks (graph.blocksReaching targets))
    (turns : (Problem.ofTargets graph targets maxVisits).Turns solver
      (.atStart graph targets) start log run after)
    (empty : run.worklist.batches = [])
    (undecided : ∀ call ∈ after.history, ∀ verdict ∈ call.verdict?,
      verdict = .unknown)
    (ranked : block ∈ graph.rankedBlocks (graph.blocksReaching targets)) :
    ¬ Malformed graph versions block := by
  have covering := turns.covering visits entered
  rcases turns.conversed with ⟨checks, told, conversed⟩
  have goes : ∀ turn ∈ log,
      (Problem.ofTargets graph targets maxVisits).admits turn = true →
      turn.ways ≠ none := by
    intro turn logged admitted stopped
    have asks := covering.asks_of_stopped logged admitted stopped
    rcases conversed.stopped turn logged asks stopped with
      ⟨check, member, unsat⟩
    have verdict :=
      undecided _ (told ▸ Check.checked_mem_flatMap member) _ rfl
    rw [unsat] at verdict
    cases verdict
  rcases covering.visited block (covering.mem_merged empty goes ranked) with
    ⟨turn, logged, rfl, admitted⟩
  exact turns.not_malformed turn logged (goes turn logged admitted) versions

/-- A search that no verdict cuts short finds what is wrong with its graph. -/
theorem Explored.exists_violation
    (own : ∀ target ∈ targets, graph.contains target = true)
    (visits : 1 ≤ maxVisits)
    (connected : ∃ target ∈ targets,
      Relation.ReflTransGen graph.Leads graph.entry target)
    {result : Except Failure Report}
    (explored :
      Explored solver graph targets maxVisits start log result after)
    (quiet : ∀ call ∈ after.history, call.fault? = none ∧
      ∀ verdict ∈ call.verdict?, verdict = .unknown)
    (flawed : ¬ Supported graph ∨
      ∃ block ∈ graph.rankedBlocks (graph.blocksReaching targets),
        Malformed graph versions block) :
    ∃ violation, result = .error (.contract violation) := by
  cases explored with
  | foreign found => exact ⟨_, rfl⟩
  | unranked outside =>
      exact absurd ((FlowGraph.entry_mem_rankedBlocks_iff own).mpr connected)
        outside
  | unseeded entered violated => exact ⟨_, rfl⟩
  | searched entered stops =>
      cases stops with
      | exhausted turns empty =>
          rcases flawed with unsupported | ⟨block, ranked, malformed⟩
          · exact absurd turns.supported unsupported
          · exact absurd malformed (turns.not_malformed_of_undecided visits
              entered empty (fun call member => (quiet call member).2) ranked)
      | finished turns popped stepped =>
          rcases Problem.history_of_step_eq_finished stepped with
            ⟨_, check, _, model, _, added⟩
          have verdict := (quiet _
            (added ▸ List.mem_append_right _ check.checked_mem_calls)).2 _ rfl
          rw [model] at verdict
          cases verdict
      | failed turns popped stepped =>
          rcases Problem.history_of_step_eq_error turns.named stepped with
            ⟨violation, _, same, _⟩ | ⟨_, said, breaks, added⟩
          · exact ⟨violation, by rw [same]⟩
          · rcases breaks.fault_or_model with
              ⟨call, member, error, fault⟩ | model
            · have faultless :=
                (quiet call (added ▸ List.mem_append_right _ member)).1
              rw [fault] at faultless
              cases faultless
            · have verdict := (quiet _
                (added ▸ List.mem_append_right _ model)).2 _ rfl
              cases verdict

end Searches

/--
A search violates its contract for what is wrong with its graph and for
nothing else.  If every parameter has a sort and no ranked block is malformed,
no violation comes of it, whatever the solver answers.  If the solver leaves
every check undecided and never fails, the contract is violated exactly if
some parameter has no sort or some ranked block is malformed.  Over which
versions a block is malformed does not matter.
-/
theorem contract_violated_iff_malformed
    {State : Type} (solver : Backend State) (start : State)
    (graph : FlowGraph) (targets : List BlockId) (maxVisits : Nat)
    (versions : VersionMap)
    (own : ∀ target ∈ targets, graph.contains target = true)
    (connected : ∃ target ∈ targets,
      Relation.ReflTransGen graph.Leads graph.entry target)
    (visits : 1 ≤ maxVisits) :
    (Supported graph →
      (∀ block ∈ graph.rankedBlocks (graph.blocksReaching targets),
        ¬ Malformed graph versions block) →
      ∀ violation,
        (explore solver graph targets maxVisits (.start start)).1 ≠
          .error (.contract violation)) ∧
    ((∀ call ∈
        (explore solver graph targets maxVisits (.start start)).2.history,
        call.fault? = none ∧
          ∀ verdict ∈ call.verdict?, verdict = .unknown) →
      ((∃ violation,
        (explore solver graph targets maxVisits (.start start)).1 =
          .error (.contract violation)) ↔
        (∃ parameter ∈ graph.parameters,
          ∃ violation, sortOf parameter.dataType = .error violation) ∨
        ∃ block ∈ graph.rankedBlocks (graph.blocksReaching targets),
          Malformed graph versions block)) := by
  rcases exists_explored solver graph targets maxVisits start with
    ⟨log, explored⟩
  have flawed : ∀ violation,
      (explore solver graph targets maxVisits (.start start)).1 =
        .error (.contract violation) →
      ¬ Supported graph ∨
        ∃ block ∈ graph.rankedBlocks (graph.blocksReaching targets),
          Malformed graph versions block := by
    intro violation violated
    rw [violated] at explored
    exact explored.exists_malformed own versions
  constructor
  · intro supported formed violation violated
    rcases flawed violation violated with unsupported | ⟨block, ranked, bad⟩
    · exact unsupported supported
    · exact formed block ranked bad
  · intro quiet
    rw [← not_supported_iff]
    constructor
    · rintro ⟨violation, violated⟩
      exact flawed violation violated
    · exact explored.exists_violation own visits connected quiet

/-- The parameter of the graph below. -/
def hatchOpens : Variable := ⟨0, "hatch_opens", .boolean⟩

/-- The variable of the graph below. -/
def shaftDepth : Variable := ⟨1, "shaft_depth", .integer false 8⟩

/-- Behind block 2, block 3 assigns a truth value to a number. -/
def trapdoor : FlowGraph where
  id := 0
  parameters := [hatchOpens]
  returns := []
  inner := [some (.jump (.var hatchOpens)),
    some (.assign shaftDepth (.var hatchOpens))]
  edges := [⟨0, 2, .unconditional⟩, ⟨2, 3, .onTrue⟩, ⟨2, 1, .onFalse⟩,
    ⟨3, 1, .unconditional⟩]

/--
Behind a target that is left undecided the malformed block is found; behind
one that is refuted it is not.  The graph without a malformed block violates
no contract.
-/
theorem trapdoor_contract_violated :
    (∃ violation, (explore (oneVerdict .unknown) trapdoor
      [trapdoor.handle 2, trapdoor.exit] 1 (.start .none)).1 =
        .error (.contract violation)) ∧
    (explore (oneVerdict .unsat) trapdoor
      [trapdoor.handle 2, trapdoor.exit] 1 (.start .none)).1 =
        .ok ⟨.unreachable, ⟨0, 4, 2, 2, 1, 0, 0⟩⟩ ∧
    ∀ violation, (explore (oneVerdict .sat) islet [islet.handle 3] 1
      (.start .none)).1 ≠ .error (.contract violation) := by
  refine ⟨?_, by decide +kernel, ?_⟩
  · have own : ∀ target ∈ [trapdoor.handle 2, trapdoor.exit],
        trapdoor.contains target = true := by decide
    have entered : trapdoor.entry ∈ trapdoor.rankedBlocks
        (trapdoor.blocksReaching [trapdoor.handle 2, trapdoor.exit]) := by
      decide +kernel
    have quiet : ∀ call ∈ (explore (oneVerdict .unknown) trapdoor
        [trapdoor.handle 2, trapdoor.exit] 1 (.start .none)).2.history,
        call.fault? = none ∧
          ∀ verdict ∈ call.verdict?, verdict = .unknown := by
      decide +kernel
    have flawed : trapdoor.handle 3 ∈ trapdoor.rankedBlocks
          (trapdoor.blocksReaching [trapdoor.handle 2, trapdoor.exit]) ∧
        Malformed trapdoor .empty (trapdoor.handle 3) := by
      decide +kernel
    exact ((contract_violated_iff_malformed (oneVerdict .unknown) .none
      trapdoor [trapdoor.handle 2, trapdoor.exit] 1 .empty own
      ((FlowGraph.entry_mem_rankedBlocks_iff own).mp entered)
      (Nat.le_refl 1)).2 quiet).mpr (Or.inr ⟨_, flawed⟩)
  · have own : ∀ target ∈ [islet.handle 3],
        islet.contains target = true := by decide
    have entered : islet.entry ∈ islet.rankedBlocks
        (islet.blocksReaching [islet.handle 3]) := by decide +kernel
    have supported : Supported islet := by
      rintro parameter (_ | ⟨_, ⟨⟩⟩)
      exact ⟨.bool, rfl⟩
    have formed : ∀ block ∈ islet.rankedBlocks
        (islet.blocksReaching [islet.handle 3]),
        ¬ Malformed islet .empty block := by decide +kernel
    exact (contract_violated_iff_malformed (oneVerdict .sat) .none islet
      [islet.handle 3] 1 .empty own
      ((FlowGraph.entry_mem_rankedBlocks_iff own).mp entered)
      (Nat.le_refl 1)).1 supported formed

end FlowWitness.Exploration
