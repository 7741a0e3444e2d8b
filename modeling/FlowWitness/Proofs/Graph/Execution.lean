import FlowWitness.Graph.Shape
import FlowWitness.Proofs.Program.Evaluation

/-!
# Running flow graphs

A run of a graph on concrete values: an assignment updates its variable, a
jump takes the side that its condition says, and any other block hands on to
the one block after it.  A run stops at a block with no successor, and at one
that has no meaning: a call, a malformed block, or one whose operation is not
well typed.
-/

namespace FlowWitness.Graph

open FlowWitness.Program

/-- Where a run is, and the values of the variables there. -/
structure Configuration where
  block : BlockId
  environment : Environment

namespace FlowGraph

/-- Give a variable the value of an expression, if their types agree. -/
def afterAssignment (environment : Environment) (target : Variable)
    (value : Expression) : Option Environment :=
  match value.eval environment with
  | some result =>
    if result.hasType target.dataType then
      some (environment.assign target result)
    else none
  | none => none

/-- One step of a run. -/
def next? (graph : FlowGraph) (current : Configuration) :
    Option Configuration :=
  match graph.operation? current.block,
    graph.successorShape current.block with
  | none, .ok (.unconditional next) => some ⟨next, current.environment⟩
  | some (.assign target value), .ok (.unconditional next) =>
    (afterAssignment current.environment target value).map (⟨next, ·⟩)
  | some (.jump condition), .ok (.branch onTrue onFalse) =>
    match condition.eval current.environment with
    | some (.bool true) => some ⟨onTrue, current.environment⟩
    | some (.bool false) => some ⟨onFalse, current.environment⟩
    | _ => none
  | _, _ => none

/-- Where a run is after a number of steps, if it gets that far. -/
def after (graph : FlowGraph) : Nat → Configuration → Option Configuration
  | 0, current => some current
  | steps + 1, current => (graph.next? current).bind (graph.after steps)

/-- The blocks of the first steps of a run, the one it starts at included. -/
def trail (graph : FlowGraph) : Nat → Configuration → List BlockId
  | 0, current => [current.block]
  | steps + 1, current =>
    current.block :: ((graph.next? current).map (graph.trail steps)).getD []

/-- A run at its start: at the entry, with values of the variables. -/
def atEntry (graph : FlowGraph) (environment : Environment) : Configuration :=
  ⟨graph.entry, environment⟩

/-- The run meets a target after so many steps, and none before. -/
def MeetsIn (graph : FlowGraph) (targets : List BlockId) :
    Nat → Configuration → Prop
  | 0, current => current.block ∈ targets
  | steps + 1, current =>
    current.block ∉ targets ∧
      ∃ next, graph.next? current = some next ∧ graph.MeetsIn targets steps next

instance decidableMeetsIn (graph : FlowGraph) (targets : List BlockId) :
    (steps : Nat) → (current : Configuration) →
      Decidable (graph.MeetsIn targets steps current)
  | 0, current => inferInstanceAs (Decidable (current.block ∈ targets))
  | steps + 1, current =>
    match moved : graph.next? current with
    | none => isFalse (fun meets => by
        rcases meets with ⟨_, next, same, _⟩
        simp [moved] at same)
    | some next =>
      have := decidableMeetsIn graph targets steps next
      decidable_of_iff (current.block ∉ targets ∧
        graph.MeetsIn targets steps next) (by simp [MeetsIn, moved])

/-- The blocks of fewer steps come first. -/
theorem trail_isPrefix
    (graph : FlowGraph) {fewer steps : Nat} (start : Configuration)
    (within : fewer ≤ steps) :
    (graph.trail fewer start).IsPrefix (graph.trail steps start) := by
  induction fewer generalizing steps start with
  | zero =>
      cases steps with
      | zero => exact List.prefix_refl _
      | succ steps => exact List.prefix_append _ _
  | succ fewer induction =>
      cases steps with
      | zero => omega
      | succ steps =>
          rw [trail, trail, List.prefix_cons_inj]
          cases graph.next? start with
          | none => exact List.prefix_refl _
          | some next => exact induction next (by omega)

theorem after_succ
    {graph : FlowGraph} {steps : Nat} {start current : Configuration}
    (reached : graph.after steps start = some current) :
    graph.after (steps + 1) start = graph.next? current := by
  induction steps generalizing start with
  | zero =>
      simp only [after, Option.some.injEq] at reached
      subst current
      cases moved : graph.next? start <;> simp [after, moved]
  | succ steps induction =>
      rw [after] at reached
      rw [after]
      cases moved : graph.next? start with
      | none => simp [moved] at reached
      | some next =>
          rw [moved] at reached
          exact induction reached

/-- A run that gets to a target meets one first. -/
theorem exists_meetsIn
    {graph : FlowGraph} {targets : List BlockId} {steps : Nat}
    {start current : Configuration}
    (reached : graph.after steps start = some current)
    (target : current.block ∈ targets) :
    ∃ first, graph.MeetsIn targets first start := by
  induction steps generalizing start with
  | zero =>
      simp only [after, Option.some.injEq] at reached
      exact ⟨0, reached ▸ target⟩
  | succ steps induction =>
      rw [after] at reached
      cases moved : graph.next? start with
      | none => simp [moved] at reached
      | some next =>
          rw [moved] at reached
          rcases induction reached with ⟨first, meets⟩
          by_cases here : start.block ∈ targets
          · exact ⟨0, here⟩
          · exact ⟨first + 1, here, next, moved, meets⟩

/-! ## The variables of a graph -/

/-- The variables that a run can read or set, with repetition. -/
def mentioned (graph : FlowGraph) : List Variable :=
  graph.parameters ++ graph.inner.flatMap (fun operation =>
    (operation.map Operation.mentioned).getD [])

/-- Every variable of the graph has a number of its own. -/
def WellNumbered (graph : FlowGraph) : Prop :=
  ∀ first ∈ graph.mentioned, ∀ second ∈ graph.mentioned,
    first.same second = true → first = second

instance (graph : FlowGraph) : Decidable graph.WellNumbered :=
  inferInstanceAs (Decidable (∀ first ∈ graph.mentioned,
    ∀ second ∈ graph.mentioned, first.same second = true → first = second))

theorem mem_mentioned_of_operation
    {graph : FlowGraph} {block : BlockId} {operation : Operation}
    (found : graph.operation? block = some operation)
    {target : Variable} (mentioned : target ∈ operation.mentioned) :
    target ∈ graph.mentioned := by
  have inside : some operation ∈ graph.inner := by
    simp only [operation?, block?, Option.bind_eq_some_iff] at found
    rcases found with ⟨content, behind, same⟩
    split at behind
    · split at behind
      · simp only [Option.some.injEq] at behind
        subst content
        simp [Block.operation?] at same
      · simp only [Option.some.injEq] at behind
        subst content
        simp [Block.operation?] at same
      · next place =>
          simp only [Option.map_eq_some_iff] at behind
          rcases behind with ⟨inner, at_place, rfl⟩
          simp only [Block.operation?] at same
          subst inner
          exact List.mem_of_getElem? at_place
    · simp at behind
  apply List.mem_append_right
  exact List.mem_flatMap.mpr ⟨some operation, inside, mentioned⟩

end FlowGraph

end FlowWitness.Graph

namespace FlowWitness.Program.Environment

/-! ## Reading after an assignment -/

theorem read_assign_self
    (environment : Environment) (target : Variable) (value : Value)
    (typed : value.hasType target.dataType = true) :
    (environment.assign target value).read target = some value := by
  cases value with
  | bool truth =>
      cases shape : target.dataType with
      | boolean => simp [read, assign, shape, Variable.same]
      | _ => simp [Value.hasType, shape] at typed
  | word width bits =>
      cases shape : target.dataType with
      | integer signed declared =>
          simp only [Value.hasType, shape, beq_iff_eq] at typed
          subst declared
          simp [read, assign, shape, Variable.same]
      | _ => simp [Value.hasType, shape] at typed

theorem read_assign_of_not_same
    (environment : Environment) {target other : Variable} (value : Value)
    (different : other.same target = false) :
    (environment.assign target value).read other = environment.read other := by
  cases value with
  | bool truth =>
      cases shape : other.dataType <;> simp [read, assign, shape, different]
  | word width bits =>
      cases shape : other.dataType <;> simp [read, assign, shape, different]

end FlowWitness.Program.Environment
