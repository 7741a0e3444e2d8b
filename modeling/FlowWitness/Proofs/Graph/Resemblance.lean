import FlowWitness.Proofs.Graph.Paths
import Mathlib.Data.List.Count

/-!
# Graphs that look alike

What a caller sees of the edges of a graph is sorted, and its blocks are told
apart by their places.  So two graphs with as many blocks and the same edges,
added in whatever order, look alike: after renaming the number of the one
graph into that of the other, every view of their edges is the same.

The renaming is any injective function on the numbers of graphs.  Handles that
differ then stay different, so that no view needs to know whether a handle
belongs to the graph at all.

Nothing is asked of the operations here: pruning and ranking do not look at
them.
-/

namespace FlowWitness.Graph

/-! ## Sorted edges -/

theorem EdgeKind.order_injective {first second : EdgeKind}
    (same : first.order = second.order) : first = second := by
  cases first <;> cases second <;> simp_all [EdgeKind.order]

namespace Edge

theorem notAfter_iff {first second : Edge} :
    first.notAfter second = true ↔
      first.kind.order < second.kind.order ∨
        first.kind.order = second.kind.order ∧ first.target ≤ second.target := by
  simp [notAfter]

theorem notAfter_trans {first second third : Edge}
    (before : first.notAfter second = true)
    (after : second.notAfter third = true) :
    first.notAfter third = true := by
  rw [notAfter_iff] at before after ⊢
  omega

theorem notAfter_of_not_notAfter {first second : Edge}
    (after : ¬ first.notAfter second = true) :
    second.notAfter first = true := by
  rw [notAfter_iff] at after ⊢
  omega

/-- Out of one block, edges that are not after each other are the same. -/
theorem eq_of_notAfter {first second : Edge}
    (source : first.source = second.source)
    (before : first.notAfter second = true)
    (after : second.notAfter first = true) :
    first = second := by
  rw [notAfter_iff] at before after
  have kinds : first.kind = second.kind :=
    EdgeKind.order_injective (by omega)
  have targets : first.target = second.target := by omega
  rcases first with ⟨_, _, _⟩
  rcases second with ⟨_, _, _⟩
  simp_all

theorem perm_insert (edge : Edge) (edges : List Edge) :
    (insert edge edges).Perm (edge :: edges) := by
  induction edges with
  | nil => exact .refl _
  | cons first rest induction =>
      rw [insert]
      split
      · exact .refl _
      · exact (induction.cons first).trans (.swap edge first rest)

theorem perm_sort (edges : List Edge) : (sort edges).Perm edges := by
  induction edges with
  | nil => exact .refl _
  | cons first rest induction =>
      exact (perm_insert first (sort rest)).trans (induction.cons first)

theorem pairwise_insert {edge : Edge} {edges : List Edge}
    (sorted : edges.Pairwise (fun first second => first.notAfter second)) :
    (insert edge edges).Pairwise (fun first second => first.notAfter second) := by
  induction edges with
  | nil => exact List.pairwise_singleton _ _
  | cons first rest induction =>
      rw [List.pairwise_cons] at sorted
      rw [insert]
      split
      · next before =>
          refine List.pairwise_cons.mpr ⟨?_, List.pairwise_cons.mpr sorted⟩
          rw [List.forall_mem_cons]
          exact ⟨before, fun later member =>
            notAfter_trans before (sorted.1 later member)⟩
      · next after =>
          refine List.pairwise_cons.mpr ⟨?_, induction sorted.2⟩
          intro later member
          rcases List.mem_cons.mp ((perm_insert edge rest).subset member) with
            rfl | old
          · exact notAfter_of_not_notAfter after
          · exact sorted.1 later old

theorem pairwise_sort (edges : List Edge) :
    (sort edges).Pairwise (fun first second => first.notAfter second) := by
  induction edges with
  | nil => exact List.Pairwise.nil
  | cons first rest induction => exact pairwise_insert induction

/-- The order in which the edges out of a block were added is forgotten. -/
theorem sort_eq_of_perm {source : Nat} {first second : List Edge}
    (leaving : ∀ edge ∈ first, edge.source = source)
    (same : first.Perm second) :
    sort first = sort second := by
  have sorted : (sort first).Perm (sort second) :=
    ((perm_sort first).trans same).trans (perm_sort second).symm
  refine sorted.eq_of_pairwise ?_ (pairwise_sort first) (pairwise_sort second)
  intro edge other here there before after
  have here := leaving edge ((perm_sort first).subset here)
  have there := leaving other
    (same.symm.subset ((perm_sort second).subset there))
  exact eq_of_notAfter (here.trans there.symm) before after

end Edge

/-! ## Renamed handles -/

/-- The handle with the number of its graph renamed. -/
def BlockId.renamed (rename : Nat → Nat) (block : BlockId) : BlockId :=
  ⟨rename block.graph, block.index⟩

theorem BlockId.renamed_injective
    {rename : Nat → Nat} (injective : Function.Injective rename) :
    Function.Injective (BlockId.renamed rename) := by
  rintro ⟨firstGraph, firstIndex⟩ ⟨secondGraph, secondIndex⟩ same
  simp only [renamed, BlockId.mk.injEq] at same
  rw [injective same.1, same.2]

/-- A shape with its handles renamed. -/
def Successors.renamed (rename : Nat → Nat) : Successors → Successors
  | .none => .none
  | .unconditional next => .unconditional (next.renamed rename)
  | .branch onTrue onFalse =>
    .branch (onTrue.renamed rename) (onFalse.renamed rename)

/-- A graph error with its handle renamed. -/
def GraphError.renamed (rename : Nat → Nat) : GraphError → GraphError
  | .unknownBlock block => .unknownBlock (block.renamed rename)
  | .mixedSuccessors block => .mixedSuccessors (block.renamed rename)
  | .duplicateSuccessor block kind =>
    .duplicateSuccessor (block.renamed rename) kind
  | .unpairedBranch block present =>
    .unpairedBranch (block.renamed rename) present

/-- A walk with its handles renamed. -/
def Walk.renamed (rename : Nat → Nat) (progress : Walk) : Walk :=
  ⟨progress.met.map (BlockId.renamed rename),
    progress.ranked.map (BlockId.renamed rename)⟩

namespace FlowGraph

/--
The second graph looks like the first, after renaming: the same parameters, as
many blocks, and the same edges in some order.
-/
structure Resembles (rename : Nat → Nat) (first second : FlowGraph) : Prop where
  injective : Function.Injective rename
  number : second.id = rename first.id
  parameters : second.parameters = first.parameters
  size : second.size = first.size
  edges : second.edges.Perm first.edges

namespace Resembles

variable {rename : Nat → Nat} {first second : FlowGraph}

/-! ## Blocks and edges -/

theorem handle (alike : Resembles rename first second) (place : Nat) :
    second.handle place = (first.handle place).renamed rename := by
  rw [FlowGraph.handle, alike.number]
  rfl

theorem entry (alike : Resembles rename first second) :
    second.entry = first.entry.renamed rename :=
  alike.handle 0

theorem renamed_eq_iff
    (alike : Resembles rename first second) {block other : BlockId} :
    block.renamed rename = other.renamed rename ↔ block = other :=
  (BlockId.renamed_injective alike.injective).eq_iff

theorem mem_map
    (alike : Resembles rename first second)
    {block : BlockId} {blocks : List BlockId} :
    block.renamed rename ∈ blocks.map (BlockId.renamed rename) ↔
      block ∈ blocks :=
  List.mem_map_of_injective (BlockId.renamed_injective alike.injective)

theorem contains_map
    (alike : Resembles rename first second)
    (block : BlockId) (blocks : List BlockId) :
    (blocks.map (BlockId.renamed rename)).contains (block.renamed rename) =
      blocks.contains block := by
  rw [Bool.eq_iff_iff, List.contains_iff_mem, List.contains_iff_mem,
    alike.mem_map]

/-- Filtering by a renamed condition is renaming what was filtered. -/
theorem filter_map
    {holds : BlockId → Bool} {keeps : BlockId → Bool}
    (same : ∀ block, holds (block.renamed rename) = keeps block)
    (blocks : List BlockId) :
    (blocks.map (BlockId.renamed rename)).filter holds =
      (blocks.filter keeps).map (BlockId.renamed rename) := by
  rw [List.filter_map]
  congr 1
  exact List.filter_congr (fun block _ => same block)

theorem contains
    (alike : Resembles rename first second) (block : BlockId) :
    second.contains (block.renamed rename) = first.contains block := by
  rw [FlowGraph.contains, FlowGraph.contains, alike.size, alike.number]
  congr 1
  rw [Bool.eq_iff_iff, beq_iff_eq, beq_iff_eq]
  exact alike.injective.eq_iff

theorem blocks (alike : Resembles rename first second) :
    second.blocks = first.blocks.map (BlockId.renamed rename) := by
  rw [FlowGraph.blocks, FlowGraph.blocks, alike.size, List.map_map]
  exact List.map_congr_left (fun place _ => alike.handle place)

theorem edgesFrom
    (alike : Resembles rename first second) (block : BlockId) :
    second.edgesFrom (block.renamed rename) =
      (first.edgesFrom block).map (fun edge =>
        (edge.1, edge.2.renamed rename)) := by
  rw [FlowGraph.edgesFrom, FlowGraph.edgesFrom, alike.contains]
  split
  · have leaving : ∀ edge ∈ second.edges.filter
        (fun edge => edge.source == block.index), edge.source = block.index :=
      fun edge member => by simpa using (List.mem_filter.mp member).2
    have sorted := Edge.sort_eq_of_perm leaving (alike.edges.filter _)
    rw [BlockId.renamed, sorted, List.map_map]
    apply List.map_congr_left
    intro edge _
    rw [alike.handle]
    rfl
  · rfl

theorem targetsBy
    (alike : Resembles rename first second) (block : BlockId)
    (kind : EdgeKind) :
    second.targetsBy (block.renamed rename) kind =
      (first.targetsBy block kind).map (BlockId.renamed rename) := by
  rw [FlowGraph.targetsBy, FlowGraph.targetsBy, alike.edgesFrom,
    List.filter_map, List.map_map, List.map_map]
  rfl

theorem successors
    (alike : Resembles rename first second) (block : BlockId) :
    second.successors (block.renamed rename) =
      (first.successors block).map (BlockId.renamed rename) := by
  rw [FlowGraph.successors, FlowGraph.successors, alike.edgesFrom,
    List.map_map, List.map_map]
  rfl

theorem predecessors
    (alike : Resembles rename first second) (block : BlockId) :
    second.predecessors (block.renamed rename) =
      (first.predecessors block).map (BlockId.renamed rename) := by
  rw [FlowGraph.predecessors, FlowGraph.predecessors, alike.contains,
    alike.blocks]
  split
  · exact filter_map (fun origin => alike.edges.any_eq) _
  · rfl

/-- Shapes and malformed shapes correspond. -/
theorem successorShape
    (alike : Resembles rename first second) (block : BlockId) :
    second.successorShape (block.renamed rename) =
      match first.successorShape block with
      | .ok shape => .ok (shape.renamed rename)
      | .error fault => .error (fault.renamed rename) := by
  rw [FlowGraph.successorShape, FlowGraph.successorShape, alike.contains,
    alike.targetsBy, alike.targetsBy, alike.targetsBy]
  split
  · generalize first.targetsBy block .onTrue = onTrue
    generalize first.targetsBy block .onFalse = onFalse
    generalize first.targetsBy block .unconditional = unconditional
    rcases onTrue with _ | ⟨_, _ | _⟩ <;>
      rcases onFalse with _ | ⟨_, _ | _⟩ <;>
      rcases unconditional with _ | ⟨_, _ | _⟩ <;> rfl
  · rfl

/-! ## Pruning and ranking -/

variable {firstTargets secondTargets : List BlockId}

theorem backwardClosure
    (alike : Resembles rename first second) (rounds : Nat)
    (queue seen : List BlockId) :
    second.backwardClosure rounds (queue.map (BlockId.renamed rename))
        (seen.map (BlockId.renamed rename)) =
      (first.backwardClosure rounds queue seen).map
        (List.map (BlockId.renamed rename)) := by
  induction rounds generalizing queue seen with
  | zero => cases queue <;> rfl
  | succ rounds induction =>
      cases queue with
      | nil => rfl
      | cons block queue =>
          rw [List.map_cons, FlowGraph.backwardClosure,
            FlowGraph.backwardClosure, alike.predecessors,
            filter_map (fun origin =>
              congrArg (!·) (alike.contains_map origin seen)),
            ← List.map_append, ← List.map_append]
          exact induction _ _

/--
Targets with the same places are reached from the same blocks, however often
and in which order they are listed.
-/
theorem blocksReaching
    (alike : Resembles rename first second)
    (targets : ∀ block,
      block.renamed rename ∈ secondTargets ↔ block ∈ firstTargets) :
    second.blocksReaching secondTargets =
      (first.blocksReaching firstTargets).map (BlockId.renamed rename) := by
  have own : second.ownTargets secondTargets =
      (first.ownTargets firstTargets).map (BlockId.renamed rename) := by
    rw [ownTargets, ownTargets, alike.blocks]
    apply filter_map
    intro block
    rw [Bool.eq_iff_iff, List.contains_iff_mem, List.contains_iff_mem]
    exact targets block
  rw [FlowGraph.blocksReaching, FlowGraph.blocksReaching]
  simp only [own, alike.size, alike.blocks, alike.backwardClosure]
  cases first.backwardClosure first.size (first.ownTargets firstTargets)
      (first.ownTargets firstTargets) with
  | none => rfl
  | some found => exact filter_map (fun block => alike.contains_map block found) _

theorem retainedSuccessors
    (alike : Resembles rename first second)
    (retained : List BlockId) (block : BlockId) :
    second.retainedSuccessors (retained.map (BlockId.renamed rename))
        (block.renamed rename) =
      (first.retainedSuccessors retained block).map
        (BlockId.renamed rename) := by
  rw [FlowGraph.retainedSuccessors, FlowGraph.retainedSuccessors,
    alike.successors, ← List.map_reverse]
  exact filter_map (fun next => alike.contains_map next retained) _

theorem walkFrom
    (alike : Resembles rename first second) (retained : List BlockId)
    (depth : Nat) (block : BlockId) (progress : Walk) :
    second.walkFrom (retained.map (BlockId.renamed rename)) depth
        (block.renamed rename) (progress.renamed rename) =
      (first.walkFrom retained depth block progress).renamed rename := by
  induction depth generalizing block progress with
  | zero => rfl
  | succ depth induction =>
      have through : ∀ (blocks : List BlockId) (soFar : Walk),
          (blocks.map (BlockId.renamed rename)).foldl (fun soFar next =>
            second.walkFrom (retained.map (BlockId.renamed rename)) depth next
              soFar) (soFar.renamed rename) =
            (blocks.foldl (fun soFar next =>
              first.walkFrom retained depth next soFar) soFar).renamed
                rename := by
        intro blocks
        induction blocks with
        | nil => exact fun _ => rfl
        | cons next rest later =>
            intro soFar
            rw [List.map_cons, List.foldl_cons, List.foldl_cons,
              induction, later]
      rw [FlowGraph.walkFrom, FlowGraph.walkFrom, alike.retainedSuccessors]
      have met := alike.contains_map block progress.met
      rw [Walk.renamed, met]
      split
      · rfl
      · have inside := through (first.retainedSuccessors retained block)
          { progress with met := block :: progress.met }
        simp only [Walk.renamed, List.map_cons] at inside ⊢
        rw [inside]

/-- Blocks of the same places have the same ranks. -/
theorem rankedBlocks
    (alike : Resembles rename first second) (retained : List BlockId) :
    second.rankedBlocks (retained.map (BlockId.renamed rename)) =
      (first.rankedBlocks retained).map (BlockId.renamed rename) := by
  rw [FlowGraph.rankedBlocks, FlowGraph.rankedBlocks, alike.entry,
    alike.contains_map, alike.size]
  split
  · exact congrArg Walk.ranked
      (alike.walkFrom retained first.size first.entry ⟨[], []⟩)
  · rfl

theorem rankOf?
    (alike : Resembles rename first second) (ranked : List BlockId)
    (block : BlockId) :
    Graph.rankOf? (ranked.map (BlockId.renamed rename))
        (block.renamed rename) =
      Graph.rankOf? ranked block := by
  rw [Graph.rankOf?, Graph.rankOf?, List.findIdx?_map]
  congr 1
  funext other
  rw [Function.comp_apply, Bool.eq_iff_iff, beq_iff_eq, beq_iff_eq]
  exact alike.renamed_eq_iff

end Resembles

end FlowGraph

end FlowWitness.Graph
