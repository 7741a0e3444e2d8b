import FlowWitness.Graph.Shape

/-!
# Building flow graphs

A graph grows by blocks and edges.  An edge may only join two blocks that the
graph already has; a step that is refused for a foreign handle leaves the
graph as it was, except that a sequence keeps the edges before the first bad
pair.  Shapes are not checked while building.
-/

namespace FlowWitness.Graph

open FlowWitness.Program

namespace FlowGraph

/-- Add an inner block, which gets the next place. -/
def addBlock (graph : FlowGraph) (operation : Option Operation) :
    BlockId × FlowGraph :=
  (graph.handle graph.size,
    { graph with inner := graph.inner ++ [operation] })

/-- The place of a block of this graph. -/
def placeOf (graph : FlowGraph) (block : BlockId) : Except GraphError Nat :=
  if graph.contains block then .ok block.index
  else .error (.unknownBlock block)

/--
Add an edge between two blocks of the graph; the source is checked first, and
nothing is added before both are.
-/
def addEdge (graph : FlowGraph) (source target : BlockId) (kind : EdgeKind) :
    Except GraphError Unit × FlowGraph :=
  match graph.placeOf source with
  | .error fault => (.error fault, graph)
  | .ok sourcePlace =>
    match graph.placeOf target with
    | .error fault => (.error fault, graph)
    | .ok targetPlace => (.ok (), { graph with
        edges := graph.edges ++ [⟨sourcePlace, targetPlace, kind⟩] })

/-- Check blocks in order, up to the first that is foreign. -/
def checkAll (graph : FlowGraph) : List BlockId → Except GraphError Unit
  | [] => .ok ()
  | block :: rest =>
    match graph.placeOf block with
    | .error fault => .error fault
    | .ok _ => graph.checkAll rest

/--
Add both sides of a branch, one after the other.  Its blocks are checked
before the graph is touched: the second edge alone may be refused, and the
first is not taken back.
-/
def addBranch (graph : FlowGraph) (source onTrue onFalse : BlockId) :
    Except GraphError Unit × FlowGraph :=
  match graph.checkAll [source, onTrue, onFalse] with
  | .error fault => (.error fault, graph)
  | .ok () =>
    match graph.addEdge source onTrue .onTrue with
    | (.error fault, extended) => (.error fault, extended)
    | (.ok (), extended) => extended.addEdge source onFalse .onFalse

/--
Add unconditional edges along a sequence of blocks, up to the first pair with
a foreign handle.
-/
def addSequence (graph : FlowGraph) :
    List BlockId → Except GraphError Unit × FlowGraph
  | [] => (.ok (), graph)
  | [_] => (.ok (), graph)
  | source :: target :: rest =>
    match graph.addEdge source target .unconditional with
    | (.error fault, extended) => (.error fault, extended)
    | (.ok (), extended) => extended.addSequence (target :: rest)

end FlowGraph

/-! ## Build scripts -/

/-- One step of building a graph. -/
inductive BuildStep where
  | block (operation : Option Operation)
  | edge (source target : BlockId) (kind : EdgeKind)
  | branch (source onTrue onFalse : BlockId)
  | sequence (blocks : List BlockId)
  deriving DecidableEq, Repr

/-- What a build step answers. -/
inductive BuildReply where
  | added (block : BlockId)
  | done
  | refused (fault : GraphError)
  deriving DecidableEq, Repr

namespace FlowGraph

/-- The reply to adding edges, with the graph that this has left. -/
def replyTo : Except GraphError Unit × FlowGraph → BuildReply × FlowGraph
  | (.ok (), extended) => (.done, extended)
  | (.error fault, extended) => (.refused fault, extended)

/-- Perform one build step. -/
def perform (graph : FlowGraph) : BuildStep → BuildReply × FlowGraph
  | .block operation =>
    let (block, extended) := graph.addBlock operation
    (.added block, extended)
  | .edge source target kind => replyTo (graph.addEdge source target kind)
  | .branch source onTrue onFalse =>
    replyTo (graph.addBranch source onTrue onFalse)
  | .sequence blocks => replyTo (graph.addSequence blocks)

/-- Perform build steps in order, with the reply to each. -/
def performAll (graph : FlowGraph) :
    List BuildStep → List BuildReply × FlowGraph
  | [] => ([], graph)
  | step :: rest =>
    let (reply, extended) := graph.perform step
    let (replies, final) := extended.performAll rest
    (reply :: replies, final)

end FlowGraph

end FlowWitness.Graph
