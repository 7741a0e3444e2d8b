import FlowWitness.Graph.Basic

/-!
# Ranks

Reverse post-order of a depth-first walk from the entry, restricted to the
retained blocks.  On an acyclic graph this is a topological order, so every
predecessor of a block comes before it.

The walk takes the edges of a block last to first; in the reversed order the
true side of a branch then comes before the false side.
-/

namespace FlowWitness.Graph

/--
A depth-first walk in progress: the blocks met so far, and the blocks left
for good, the last one left at the front.
-/
structure Walk where
  met : List BlockId
  ranked : List BlockId
  deriving DecidableEq, Repr

namespace FlowGraph

/-- The retained successors of a block, last edge first. -/
def retainedSuccessors (graph : FlowGraph) (retained : List BlockId)
    (block : BlockId) : List BlockId :=
  (graph.successors block).reverse.filter (fun next => retained.contains next)

/--
Walk from a block, unless it has been met: through its successors in turn,
and then leave it.  Every level of depth meets a block for the first time, so
the number of blocks bounds the depth.
-/
def walkFrom (graph : FlowGraph) (retained : List BlockId) :
    (depth : Nat) → BlockId → Walk → Walk
  | 0, _, progress => progress
  | depth + 1, block, progress =>
    if progress.met.contains block then progress
    else
      let inside := (graph.retainedSuccessors retained block).foldl
        (fun soFar next => walkFrom graph retained depth next soFar)
        { progress with met := block :: progress.met }
      { inside with ranked := block :: inside.ranked }

/--
The retained blocks that can be reached from the entry through retained
blocks, in order of rank; none if the entry is not retained.
-/
def rankedBlocks (graph : FlowGraph) (retained : List BlockId) :
    List BlockId :=
  if retained.contains graph.entry then
    (graph.walkFrom retained graph.size graph.entry ⟨[], []⟩).ranked
  else []

end FlowGraph

/-- The rank of a block, if it has one. -/
def rankOf? (ranked : List BlockId) (block : BlockId) : Option Nat :=
  ranked.findIdx? (fun other => other == block)

end FlowWitness.Graph
