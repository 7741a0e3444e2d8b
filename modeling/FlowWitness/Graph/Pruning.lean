import FlowWitness.Graph.Basic

/-!
# Blocks that can reach a target

Backward reachability along edges of any kind.  Every block enters the queue
at most once, so as many rounds as the graph has blocks empty it.
-/

namespace FlowWitness.Graph

namespace FlowGraph

/--
Follow edges backward: `queue` holds the blocks still to be looked at, `seen`
all blocks found so far.  There is no result if the rounds run out before the
queue does.
-/
def backwardClosure (graph : FlowGraph) :
    Nat → (queue seen : List BlockId) → Option (List BlockId)
  | _, [], seen => some seen
  | 0, _ :: _, _ => none
  | rounds + 1, block :: queue, seen =>
    let found := (graph.predecessors block).filter (fun origin =>
      !seen.contains origin)
    backwardClosure graph rounds (queue ++ found) (seen ++ found)

/-- The targets that are blocks of the graph, each once. -/
def ownTargets (graph : FlowGraph) (targets : List BlockId) : List BlockId :=
  graph.blocks.filter (fun block => targets.contains block)

/--
The blocks from which some target can be reached, in order of creation.
Handles of other graphs among the targets are passed over.
-/
def blocksReaching (graph : FlowGraph) (targets : List BlockId) :
    List BlockId :=
  let own := graph.ownTargets targets
  match graph.backwardClosure graph.size own own with
  | some found => graph.blocks.filter (fun block => found.contains block)
  | none => []

end FlowGraph

end FlowWitness.Graph
