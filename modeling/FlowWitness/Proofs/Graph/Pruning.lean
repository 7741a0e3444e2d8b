import FlowWitness.Graph.Pruning
import FlowWitness.Proofs.Graph.Execution
import Mathlib.Data.List.Nodup
import Mathlib.Data.List.Perm.Subperm

/-!
# Pruning keeps what can reach a target

The search backward from the targets ends before its rounds run out, because a
round looks at one queued block and a block is queued only once.  It finds the
targets and, with a block, every block that has an edge to it.  A run that
meets a target therefore passes retained blocks only.
-/

namespace FlowWitness.Graph.FlowGraph

open FlowWitness.Program

variable {graph : FlowGraph}

/-! ## Blocks -/

theorem contains_handle {place : Nat} :
    graph.contains (graph.handle place) = true ↔ place < graph.size := by
  simp only [contains, handle, beq_self_eq_true, Bool.true_and]
  exact decide_eq_true_iff

theorem mem_blocks {block : BlockId} :
    block ∈ graph.blocks ↔ graph.contains block = true := by
  rcases block with ⟨owner, index⟩
  simp only [blocks, List.mem_map, List.mem_range, contains, handle,
    BlockId.mk.injEq, Bool.and_eq_true, beq_iff_eq, decide_eq_true_eq]
  constructor
  · rintro ⟨place, inside, rfl, rfl⟩
    exact ⟨rfl, inside⟩
  · rintro ⟨rfl, inside⟩
    exact ⟨index, inside, rfl, rfl⟩

theorem length_blocks : graph.blocks.length = graph.size := by
  simp [blocks]

theorem nodup_blocks : graph.blocks.Nodup := by
  apply List.Nodup.map _ List.nodup_range
  intro first second same
  simpa [handle] using same

/-- Blocks without repetition are no more than the graph has. -/
theorem length_le_size
    {seen : List BlockId} (nodup : seen.Nodup)
    (inside : ∀ block ∈ seen, block ∈ graph.blocks) :
    seen.length ≤ graph.size := by
  rw [← length_blocks]
  exact (List.subperm_of_subset nodup inside).length_le

theorem predecessors_subset {block origin : BlockId}
    (member : origin ∈ graph.predecessors block) :
    origin ∈ graph.blocks := by
  unfold predecessors at member
  split at member
  · exact (List.mem_filter.mp member).1
  · simp at member

/-! ## The backward closure -/

/--
A closure in progress: distinct blocks of the graph, of which those that are
not queued have all their predecessors among them.
-/
structure Closing (graph : FlowGraph) (queue seen : List BlockId) : Prop where
  nodup : seen.Nodup
  inside : ∀ block ∈ seen, block ∈ graph.blocks
  closed : ∀ block ∈ seen, block ∈ queue ∨
    ∀ origin ∈ graph.predecessors block, origin ∈ seen

/-- The predecessors of a block that were not seen before. -/
def unseenPredecessors (graph : FlowGraph) (block : BlockId)
    (seen : List BlockId) : List BlockId :=
  (graph.predecessors block).filter (fun origin => !seen.contains origin)

theorem mem_unseenPredecessors
    {block origin : BlockId} {seen : List BlockId} :
    origin ∈ graph.unseenPredecessors block seen ↔
      origin ∈ graph.predecessors block ∧ origin ∉ seen := by
  simp [unseenPredecessors]

theorem nodup_unseenPredecessors (block : BlockId) (seen : List BlockId) :
    (graph.unseenPredecessors block seen).Nodup := by
  apply List.Nodup.filter
  unfold predecessors
  split
  · exact nodup_blocks.filter _
  · exact List.nodup_nil

theorem Closing.round
    {block : BlockId} {queue seen : List BlockId}
    (closing : graph.Closing (block :: queue) seen) :
    graph.Closing (queue ++ graph.unseenPredecessors block seen)
      (seen ++ graph.unseenPredecessors block seen) where
  nodup := by
    apply List.Nodup.append closing.nodup (nodup_unseenPredecessors block seen)
    intro origin old new
    exact (mem_unseenPredecessors.mp new).2 old
  inside := by
    intro origin member
    rcases List.mem_append.mp member with old | new
    · exact closing.inside origin old
    · exact predecessors_subset (mem_unseenPredecessors.mp new).1
  closed := by
    intro other member
    rcases List.mem_append.mp member with old | new
    · by_cases same : other = block
      · subst other
        refine Or.inr (fun origin before => ?_)
        by_cases known : origin ∈ seen
        · exact List.mem_append_left _ known
        · exact List.mem_append_right _
            (mem_unseenPredecessors.mpr ⟨before, known⟩)
      · rcases closing.closed other old with queued | done
        · have later := (List.mem_cons.mp queued).resolve_left same
          exact Or.inl (List.mem_append_left _ later)
        · exact Or.inr (fun origin before =>
            List.mem_append_left _ (done origin before))
    · exact Or.inl (List.mem_append_right _ new)

/--
A search backward that ends: it looks at the blocks of the queue in turn, as
long as there are any, and queues the predecessors it meets for the first
time.  The number is that of its rounds.
-/
inductive Closes (graph : FlowGraph) :
    Nat → (queue seen found : List BlockId) → Prop where
  | done (seen : List BlockId) : Closes graph 0 [] seen seen
  | round {rounds : Nat} {block : BlockId} {queue seen found : List BlockId}
      (later : Closes graph rounds
        (queue ++ graph.unseenPredecessors block seen)
        (seen ++ graph.unseenPredecessors block seen) found) :
      Closes graph (rounds + 1) (block :: queue) seen found

section Closes

variable {rounds : Nat} {queue seen found : List BlockId}

/-- What has been seen is found. -/
theorem Closes.keeps (closes : graph.Closes rounds queue seen found) :
    ∀ block ∈ seen, block ∈ found := by
  induction closes with
  | done => exact fun _ member => member
  | round _ later =>
      intro block member
      exact later block (List.mem_append_left _ member)

/-- With a block, its predecessors are found. -/
theorem Closes.closed (closes : graph.Closes rounds queue seen found)
    (closing : graph.Closing queue seen) :
    ∀ block ∈ found, ∀ origin ∈ graph.predecessors block, origin ∈ found := by
  induction closes with
  | done =>
      intro block member
      exact (closing.closed block member).resolve_left (by simp)
  | round _ later => exact later closing.round

/-- Only blocks of the graph are found. -/
theorem Closes.inside (closes : graph.Closes rounds queue seen found)
    (closing : graph.Closing queue seen) :
    ∀ block ∈ found, block ∈ graph.blocks := by
  induction closes with
  | done => exact closing.inside
  | round _ later => exact later closing.round

/--
With rounds enough the search ends with a result: a round takes one block off
the queue and queues what it newly sees, which is never more than the graph
has.
-/
theorem exists_backwardClosure
    (bound : Nat) (closing : graph.Closing queue seen)
    (enough : queue.length + graph.size ≤ bound + seen.length) :
    ∃ rounds ≤ bound, ∃ found,
      graph.backwardClosure bound queue seen = some found ∧
        graph.Closes rounds queue seen found := by
  induction bound generalizing queue seen with
  | zero =>
      have few := length_le_size closing.nodup closing.inside
      have empty : queue = [] := List.length_eq_zero_iff.mp (by omega)
      subst empty
      exact ⟨0, Nat.le_refl 0, seen, rfl, .done seen⟩
  | succ bound induction =>
      cases queue with
      | nil => exact ⟨0, Nat.zero_le _, seen, rfl, .done seen⟩
      | cons block queue =>
          have fewer : (queue ++ graph.unseenPredecessors block seen).length +
              graph.size ≤
                bound + (seen ++ graph.unseenPredecessors block seen).length := by
            simp only [List.length_append, List.length_cons] at enough ⊢
            omega
          rcases induction closing.round fewer with
            ⟨rounds, within, found, ends, closes⟩
          exact ⟨rounds + 1, Nat.succ_le_succ within, found, ends,
            .round closes⟩

end Closes

/-! ## Retained blocks -/

theorem mem_ownTargets {targets : List BlockId} {block : BlockId} :
    block ∈ graph.ownTargets targets ↔
      block ∈ graph.blocks ∧ block ∈ targets := by
  simp [ownTargets]

theorem closing_ownTargets (targets : List BlockId) :
    graph.Closing (graph.ownTargets targets) (graph.ownTargets targets) where
  nodup := nodup_blocks.filter _
  inside _ member := (mem_ownTargets.mp member).1
  closed _ member := Or.inl member

/--
The search backward from the graph's own targets ends, and what it finds is
retained.
-/
theorem exists_closes (graph : FlowGraph) (targets : List BlockId) :
    ∃ rounds ≤ graph.size, ∃ found,
      graph.backwardClosure graph.size (graph.ownTargets targets)
          (graph.ownTargets targets) = some found ∧
        graph.Closes rounds (graph.ownTargets targets)
          (graph.ownTargets targets) found ∧
        ∀ block, block ∈ graph.blocksReaching targets ↔ block ∈ found := by
  have closing := graph.closing_ownTargets targets
  rcases exists_backwardClosure graph.size closing (by omega) with
    ⟨rounds, within, found, ends, closes⟩
  refine ⟨rounds, within, found, ends, closes, fun block => ?_⟩
  simp only [blocksReaching, ends, List.mem_filter, List.contains_iff_mem]
  exact and_iff_right_of_imp (closes.inside closing block)

theorem blocksReaching_subset (targets : List BlockId) :
    ∀ block ∈ graph.blocksReaching targets, block ∈ graph.blocks := by
  intro block retained
  rcases exists_closes graph targets with ⟨_, _, _, _, closes, same⟩
  exact closes.inside (closing_ownTargets targets) block
    ((same block).mp retained)

theorem nodup_blocksReaching (targets : List BlockId) :
    (graph.blocksReaching targets).Nodup := by
  simp only [blocksReaching]
  split
  · exact nodup_blocks.filter _
  · exact List.nodup_nil

/-- The graph's own targets are retained. -/
theorem target_mem_blocksReaching
    {targets : List BlockId} {block : BlockId}
    (own : graph.contains block = true) (target : block ∈ targets) :
    block ∈ graph.blocksReaching targets := by
  rcases exists_closes graph targets with ⟨_, _, _, _, closes, same⟩
  exact (same block).mpr (closes.keeps block
    (mem_ownTargets.mpr ⟨mem_blocks.mpr own, target⟩))

/-- With a block, its predecessors are retained. -/
theorem predecessor_mem_blocksReaching
    {targets : List BlockId} {block origin : BlockId}
    (retained : block ∈ graph.blocksReaching targets)
    (before : origin ∈ graph.predecessors block) :
    origin ∈ graph.blocksReaching targets := by
  rcases exists_closes graph targets with ⟨_, _, _, _, closes, same⟩
  exact (same origin).mpr (closes.closed (closing_ownTargets targets) block
    ((same block).mp retained) origin before)

/-! ## Steps follow edges -/

theorem mem_insert {edge new : Edge} {sorted : List Edge} :
    edge ∈ Edge.insert new sorted ↔ edge = new ∨ edge ∈ sorted := by
  induction sorted with
  | nil => simp [Edge.insert]
  | cons first rest induction =>
      rw [Edge.insert]
      split
      · simp
      · rw [List.mem_cons, induction, List.mem_cons, or_left_comm]

theorem mem_sort {edge : Edge} {edges : List Edge} :
    edge ∈ Edge.sort edges ↔ edge ∈ edges := by
  induction edges with
  | nil => simp [Edge.sort]
  | cons first rest induction =>
      rw [Edge.sort, List.foldr_cons, mem_insert, List.mem_cons]
      exact or_congr_right induction

/-- A block comes before each of its successors. -/
theorem mem_predecessors_of_successor
    {block next : BlockId} (after : next ∈ graph.successors block)
    (own : graph.contains next = true) :
    block ∈ graph.predecessors next := by
  simp only [successors, edgesFrom] at after
  split at after
  · next contained =>
      simp only [List.map_map, List.mem_map, mem_sort, List.mem_filter] at after
      rcases after with ⟨edge, ⟨inside, leaving⟩, rfl⟩
      rw [predecessors, if_pos own, List.mem_filter]
      refine ⟨mem_blocks.mpr contained, ?_⟩
      rw [List.any_eq_true]
      exact ⟨edge, inside, by simpa [handle] using leaving⟩
  · simp at after

theorem mem_successors_of_targetsBy
    {block next : BlockId} {kind : EdgeKind}
    (member : next ∈ graph.targetsBy block kind) :
    next ∈ graph.successors block := by
  rcases List.mem_map.mp member with ⟨edge, inside, rfl⟩
  exact List.mem_map_of_mem (List.mem_filter.mp inside).1

/-- What the shape of a block names are its successors. -/
theorem mem_successors_of_shape
    {block next : BlockId} {shape : Successors}
    (shaped : graph.successorShape block = .ok shape)
    (named : shape = .unconditional next ∨
      ∃ other, shape = .branch next other ∨ shape = .branch other next) :
    graph.contains block = true ∧ next ∈ graph.successors block := by
  unfold successorShape at shaped
  split at shaped
  · next contained =>
      refine ⟨contained, ?_⟩
      split at shaped <;>
        simp only [Except.ok.injEq, reduceCtorEq] at shaped <;>
        subst shape
      · simp at named
      · next only =>
          simp only [Successors.unconditional.injEq, reduceCtorEq, or_self,
            exists_false, or_false] at named
          subst next
          exact mem_successors_of_targetsBy (by rw [only]; simp)
      · next onTrue onFalse _ =>
          simp only [reduceCtorEq, false_or] at named
          rcases named with ⟨other, first | second⟩
          · simp only [Successors.branch.injEq] at first
            exact mem_successors_of_targetsBy (by rw [onTrue, first.1]; simp)
          · simp only [Successors.branch.injEq] at second
            exact mem_successors_of_targetsBy (by rw [onFalse, second.2]; simp)
  · simp at shaped

/-- A step leads from a block of the graph to one of its successors. -/
theorem next?_successor
    {current after : Configuration}
    (moved : graph.next? current = some after) :
    graph.contains current.block = true ∧
      after.block ∈ graph.successors current.block := by
  unfold next? at moved
  split at moved
  · next onward idle shaped =>
      simp only [Option.some.injEq] at moved
      subst after
      exact mem_successors_of_shape shaped (Or.inl rfl)
  · next target value onward assigns shaped =>
      simp only [Option.map_eq_some_iff] at moved
      rcases moved with ⟨environment, _, rfl⟩
      exact mem_successors_of_shape shaped (Or.inl rfl)
  · next condition onTrue onFalse jumps shaped =>
      split at moved
      · simp only [Option.some.injEq] at moved
        subst after
        exact mem_successors_of_shape shaped (Or.inr ⟨_, Or.inl rfl⟩)
      · simp only [Option.some.injEq] at moved
        subst after
        exact mem_successors_of_shape shaped (Or.inr ⟨_, Or.inr rfl⟩)
      · simp at moved
  · simp at moved

/-- A run that meets a target is at a retained block. -/
theorem MeetsIn.mem_blocksReaching
    {targets : List BlockId}
    (own : ∀ target ∈ targets, graph.contains target = true)
    {steps : Nat} {current : Configuration}
    (meets : graph.MeetsIn targets steps current) :
    current.block ∈ graph.blocksReaching targets := by
  induction steps generalizing current with
  | zero => exact target_mem_blocksReaching (own _ meets) meets
  | succ steps induction =>
      rcases meets with ⟨_, after, moved, later⟩
      have retained := induction later
      rcases next?_successor moved with ⟨_, successor⟩
      have contained := mem_blocks.mp (blocksReaching_subset _ _ retained)
      exact predecessor_mem_blocksReaching retained
        (mem_predecessors_of_successor successor contained)

end FlowWitness.Graph.FlowGraph
