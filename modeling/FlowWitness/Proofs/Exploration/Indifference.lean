import FlowWitness.Proofs.Exploration.Lockstep
import FlowWitness.Proofs.Graph.BuildScripts
import Mathlib.Logic.Equiv.Basic

/-!
# What a search is indifferent to

Two searches are the same if they say the same to the solver, and end with the
same report, or with the same failure at the same place.  A search is
indifferent to the order in which the edges of its graph were added and its
targets are listed, and to what the blocks do that lie on no way from the
entry to a target.
-/

namespace FlowWitness

open FlowWitness.Graph
open FlowWitness.Graph.FlowGraph (contains_handle)
open FlowWitness.Program
open FlowWitness.Smt
open FlowWitness.Solver
open FlowWitness.Solver.Conversation

/-- A failure with its blocks given by their places, whatever their graph. -/
def Failure.byPlace (failure : Failure) : Failure :=
  failure.renamed (fun _ => 0)

theorem Failure.byPlace_renamed (rename : Nat → Nat) (failure : Failure) :
    (failure.renamed rename).byPlace = failure.byPlace := by
  rcases failure with violation | error | _ | _ | _
  · rcases violation with _ | _ | _ | _ | _ | _ | fault
    case topology => cases fault <;> rfl
    all_goals rfl
  · cases error <;> rfl
  all_goals rfl

namespace Exploration

variable {State : Type}

/--
Two executions are the same, blocks compared by place: they end with the same
report or the same failure, after the same calls with the same answers.
-/
structure SameByPlace
    (first second : Except Failure Report × Dialogue State) : Prop where
  result : first.1.mapError Failure.byPlace =
    second.1.mapError Failure.byPlace
  dialogue : first.2 = second.2

theorem sameByPlace_renamedBy
    (rename : Nat → Nat) (conversation : Conversation State Report)
    (dialogue : Dialogue State) :
    SameByPlace (conversation dialogue)
      (renamedBy rename (fun report => report) conversation dialogue) := by
  rw [renamedBy]
  rcases conversation dialogue with ⟨failure | report, after⟩
  · constructor
    · exact congrArg Except.error (failure.byPlace_renamed rename).symm
    · rfl
  · constructor <;> rfl

/-! ## Graphs with different numbers -/

/-- The numbers of two graphs can be exchanged. -/
theorem resembles_swap
    {first second : FlowGraph}
    (parameters : first.parameters = second.parameters)
    (size : first.size = second.size)
    (edges : first.edges.Perm second.edges) :
    first.Resembles (Equiv.swap first.id second.id) second where
  injective := (Equiv.swap first.id second.id).injective
  number := (Equiv.swap_apply_left first.id second.id).symm
  parameters := parameters.symm
  size := size.symm
  edges := edges.symm

/-- Own blocks are given by their places. -/
theorem mem_iff_index_mem
    {graph : FlowGraph} {blocks : List BlockId}
    (own : ∀ block ∈ blocks, graph.contains block = true) (block : BlockId) :
    block ∈ blocks ↔
      block.graph = graph.id ∧ block.index ∈ blocks.map BlockId.index := by
  have number : ∀ other ∈ blocks, other.graph = graph.id := by
    intro other member
    have contained := own other member
    rw [FlowGraph.contains, Bool.and_eq_true, beq_iff_eq] at contained
    exact contained.1
  constructor
  · intro member
    exact ⟨number block member, List.mem_map_of_mem member⟩
  · rintro ⟨same, member⟩
    rcases List.mem_map.mp member with ⟨other, among, place⟩
    have whole : other = block := by
      rcases block with ⟨_, _⟩
      rcases other with ⟨_, _⟩
      simp only at same place
      rw [BlockId.mk.injEq]
      exact ⟨(number _ among).trans same.symm, place⟩
    exact whole ▸ among

theorem renamed_mem_iff
    {rename : Nat → Nat} {first second : FlowGraph}
    {firstTargets secondTargets : List BlockId}
    (alike : first.Resembles rename second)
    (firstOwn : ∀ target ∈ firstTargets, first.contains target = true)
    (secondOwn : ∀ target ∈ secondTargets, second.contains target = true)
    (places : ∀ place, place ∈ firstTargets.map BlockId.index ↔
      place ∈ secondTargets.map BlockId.index)
    (block : BlockId) :
    block.renamed rename ∈ secondTargets ↔ block ∈ firstTargets := by
  rw [mem_iff_index_mem firstOwn, mem_iff_index_mem secondOwn, places,
    alike.number]
  exact and_congr_left' alike.injective.eq_iff

/--
Graphs with the same parameters, as many blocks and the same edges are
explored alike, if the blocks on a way to a target do the same and the targets
have the same places.
-/
theorem sameByPlace_explore
    (solver : Backend State) (dialogue : Dialogue State)
    {first second : FlowGraph} {firstTargets secondTargets : List BlockId}
    (maxVisits : Nat)
    (parameters : first.parameters = second.parameters)
    (size : first.size = second.size)
    (edges : first.edges.Perm second.edges)
    (firstOwn : ∀ target ∈ firstTargets, first.contains target = true)
    (secondOwn : ∀ target ∈ secondTargets, second.contains target = true)
    (places : ∀ place, place ∈ firstTargets.map BlockId.index ↔
      place ∈ secondTargets.map BlockId.index)
    (agree : ∀ place, first.OnRoute firstTargets (first.handle place) →
      first.operation? (first.handle place) =
        second.operation? (second.handle place)) :
    SameByPlace (explore solver first firstTargets maxVisits dialogue)
      (explore solver second secondTargets maxVisits dialogue) := by
  have alike := resembles_swap parameters size edges
  have operations : ∀ block ∈
      first.rankedBlocks (first.blocksReaching firstTargets),
      second.operation? (block.renamed (Equiv.swap first.id second.id)) =
        first.operation? block := by
    intro block ranked
    have inside := FlowGraph.mem_blocks_of_mem_rankedBlocks
      (FlowGraph.blocksReaching_subset firstTargets) ranked
    rcases List.mem_map.mp inside with ⟨place, _, rfl⟩
    rw [← alike.handle]
    exact (agree place
      ((FlowGraph.mem_rankedBlocks_iff firstOwn).mp ranked)).symm
  rw [explore_eq_renamedBy solver alike firstOwn secondOwn
    (renamed_mem_iff alike firstOwn secondOwn places) operations maxVisits]
  exact sameByPlace_renamedBy _ _ dialogue

/-! ## The order of building -/

/-- What a block does is given by its place among the inner blocks. -/
theorem operation?_handle (graph : FlowGraph) (place : Nat) :
    graph.operation? (graph.handle place) =
      match place with
      | 0 | 1 => none
      | inside + 2 => graph.inner[inside]?.join := by
  rw [FlowGraph.operation?, FlowGraph.block?]
  split
  · rcases place with _ | _ | inside
    · rfl
    · rfl
    · simp only [FlowGraph.handle]
      cases graph.inner[inside]? <;> rfl
  · next outside =>
      rw [contains_handle] at outside
      rcases place with _ | _ | inside
      · rfl
      · rfl
      · have beyond : graph.inner[inside]? = none :=
          List.getElem?_eq_none (by rw [FlowGraph.size] at outside; omega)
        simp [beyond]

/--
A search is indifferent to the order of building: scripts that create the same
blocks in the same order and add the same edges in any order give graphs that
are explored alike, whatever the order and the repetitions of the targets.
-/
theorem building_order_is_invisible
    (solver : Backend State) (dialogue : Dialogue State)
    (parameters : List Variable) (returns : List Expression)
    (firstId secondId : Nat) (firstSteps secondSteps : List BuildStep)
    (firstTargets secondTargets : List BlockId) (maxVisits : Nat)
    (blocks : createdBlocks firstSteps = createdBlocks secondSteps)
    (edges : ((FlowGraph.start firstId parameters returns).addedEdges
      firstSteps).Perm
        ((FlowGraph.start secondId parameters returns).addedEdges secondSteps))
    (firstOwn : ∀ target ∈ firstTargets,
      (FlowGraph.built firstId parameters returns firstSteps).contains target =
        true)
    (secondOwn : ∀ target ∈ secondTargets,
      (FlowGraph.built secondId parameters returns secondSteps).contains
        target = true)
    (places : ∀ place, place ∈ firstTargets.map BlockId.index ↔
      place ∈ secondTargets.map BlockId.index) :
    SameByPlace
      (explore solver (.built firstId parameters returns firstSteps)
        firstTargets maxVisits dialogue)
      (explore solver (.built secondId parameters returns secondSteps)
        secondTargets maxVisits dialogue) := by
  have inner : (FlowGraph.built firstId parameters returns firstSteps).inner =
      (FlowGraph.built secondId parameters returns secondSteps).inner := by
    rw [FlowGraph.built_eq, FlowGraph.built_eq]
    exact blocks
  apply sameByPlace_explore solver dialogue maxVisits _ _ _ firstOwn secondOwn
    places
  · intro place _
    rw [operation?_handle, operation?_handle, inner]
  · rw [FlowGraph.built_eq, FlowGraph.built_eq]
  · rw [FlowGraph.size, FlowGraph.size, inner]
  · rw [FlowGraph.built_eq, FlowGraph.built_eq]
    exact edges

/-- The parameter of the graphs below. -/
def gateOpens : Variable := ⟨0, "gate_opens", .boolean⟩

/-- A call, which no search can encode. -/
def fetch : Operation := .call ⟨"fetch", [], []⟩ [] none

/-- Builds a gate from the entry on, in the order of its paths. -/
def gateForwards : List BuildStep :=
  [.block (some (.jump (.var gateOpens))), .block none, .block (some fetch),
    .sequence [⟨7, 0⟩, ⟨7, 2⟩], .branch ⟨7, 2⟩ ⟨7, 3⟩ ⟨7, 4⟩,
    .sequence [⟨7, 3⟩, ⟨7, 1⟩], .edge ⟨7, 4⟩ ⟨7, 1⟩ .unconditional]

/-- Builds the same gate from the exit on, with a handle of another graph. -/
def gateBackwards : List BuildStep :=
  [.block (some (.jump (.var gateOpens))), .block none, .block (some fetch),
    .sequence [⟨9, 4⟩, ⟨9, 1⟩, ⟨7, 2⟩], .edge ⟨9, 3⟩ ⟨9, 1⟩ .unconditional,
    .edge ⟨9, 2⟩ ⟨9, 4⟩ .onFalse, .edge ⟨9, 2⟩ ⟨9, 3⟩ .onTrue,
    .edge ⟨9, 0⟩ ⟨9, 2⟩ .unconditional]

/--
However the gate is built, the same call is found behind it, after the same
question about the block in front of the exit.
-/
theorem gate_building_order_is_invisible :
    (explore (oneVerdict .unknown) (.built 7 [gateOpens] [] gateForwards)
      [⟨7, 3⟩, ⟨7, 1⟩, ⟨7, 3⟩] 1 (.start .none)).1 =
        .error (.contract (.unsupportedOperation ⟨7, 4⟩ "Call")) ∧
    (explore (oneVerdict .unknown) (.built 7 [gateOpens] [] gateForwards)
      [⟨7, 3⟩, ⟨7, 1⟩, ⟨7, 3⟩] 1 (.start .none)).2.solver.checks = 1 ∧
    SameByPlace
      (explore (oneVerdict .unknown) (.built 7 [gateOpens] [] gateForwards)
        [⟨7, 3⟩, ⟨7, 1⟩, ⟨7, 3⟩] 1 (.start .none))
      (explore (oneVerdict .unknown) (.built 9 [gateOpens] [] gateBackwards)
        [⟨9, 1⟩, ⟨9, 3⟩] 1 (.start .none)) := by
  refine ⟨by decide +kernel, by decide +kernel, ?_⟩
  apply building_order_is_invisible
  · rfl
  · decide
  · decide
  · decide
  · intro place
    change place ∈ [3, 1, 3] ↔ place ∈ [1, 3]
    simp only [List.mem_cons, List.not_mem_nil, or_false]
    omega

/-! ## Blocks off the way -/

/--
A search is indifferent to what the blocks do that are not both reachable from
the entry and able to reach a target: whatever stands there, a call, a float
or an expression without a sort, is never looked at.
-/
theorem blocks_off_the_way_have_no_influence
    (solver : Backend State) (dialogue : Dialogue State)
    (first second : FlowGraph) (places : List Nat) (maxVisits : Nat)
    (parameters : first.parameters = second.parameters)
    (size : first.size = second.size)
    (edges : first.edges.Perm second.edges)
    (own : ∀ place ∈ places, place < first.size)
    (agree : ∀ place,
      first.OnRoute (places.map first.handle) (first.handle place) →
        first.operation? (first.handle place) =
          second.operation? (second.handle place)) :
    SameByPlace
      (explore solver first (places.map first.handle) maxVisits dialogue)
      (explore solver second (places.map second.handle) maxVisits
        dialogue) := by
  apply sameByPlace_explore solver dialogue maxVisits parameters size edges _ _
    _ agree
  · intro target member
    rcases List.mem_map.mp member with ⟨place, listed, rfl⟩
    exact contains_handle.mpr (own place listed)
  · intro target member
    rcases List.mem_map.mp member with ⟨place, listed, rfl⟩
    exact contains_handle.mpr (size ▸ own place listed)
  · intro place
    rw [List.map_map, List.map_map]
    rfl

/-- A gate whose false side is a dead end, where the given operation stands. -/
def gateWithSpur (id : Nat) (operation : Option Operation) : FlowGraph where
  id := id
  parameters := [gateOpens]
  returns := []
  inner := [some (.jump (.var gateOpens)), none, operation]
  edges := [⟨0, 2, .unconditional⟩, ⟨2, 3, .onTrue⟩, ⟨2, 4, .onFalse⟩,
    ⟨3, 1, .unconditional⟩]

/-- The exit is reached although a call stands in the dead end. -/
theorem gateWithSpur_blocks_off_the_way :
    (explore (oneVerdict .sat) (gateWithSpur 0 none) [⟨0, 1⟩] 1
      (.start .none)).1 = .ok ⟨.reachable ⟨[(gateOpens, .bool false)]⟩,
        ⟨1, 4, 4, 4, 1, 0, 0⟩⟩ ∧
    SameByPlace
      (explore (oneVerdict .sat) (gateWithSpur 0 none) [⟨0, 1⟩] 1
        (.start .none))
      (explore (oneVerdict .sat) (gateWithSpur 5 (some fetch)) [⟨5, 1⟩] 1
        (.start .none)) := by
  refine ⟨by decide +kernel, ?_⟩
  apply blocks_off_the_way_have_no_influence (oneVerdict .sat) (.start .none)
    (gateWithSpur 0 none) (gateWithSpur 5 (some fetch)) [1] 1
  · rfl
  · rfl
  · exact .refl _
  · decide
  · intro place onRoute
    have own : ∀ target ∈ [1].map (gateWithSpur 0 none).handle,
        (gateWithSpur 0 none).contains target = true := by decide
    have same : ∀ block ∈ (gateWithSpur 0 none).rankedBlocks
        ((gateWithSpur 0 none).blocksReaching
          ([1].map (gateWithSpur 0 none).handle)),
        (gateWithSpur 0 none).operation? block =
          (gateWithSpur 5 (some fetch)).operation?
            ((gateWithSpur 5 (some fetch)).handle block.index) := by
      decide +kernel
    exact same _ ((FlowGraph.mem_rankedBlocks_iff own).mpr onRoute)

end Exploration

end FlowWitness
