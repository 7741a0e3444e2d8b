import FlowWitness.Program.Operation

/-!
# Flow graphs

A flow graph has one entry, one exit and any number of inner blocks, which
are numbered in order of creation: the entry is block zero, the exit block
one.  Its edges form a multigraph and are kept in order of creation; what a
caller sees of them is always sorted, so that two graphs with the same edges
cannot be told apart.

A block is named by a handle that carries the number of its graph, so that a
handle of one graph is never taken for a block of another.
-/

namespace FlowWitness.Graph

open FlowWitness.Program

/-! ## Handles and edges -/

/-- A handle on a block: the number of its graph, and its place there. -/
structure BlockId where
  graph : Nat
  index : Nat
  deriving DecidableEq, Repr

/-- The text of a handle: `b3`. -/
def BlockId.text (block : BlockId) : String :=
  "b" ++ toString block.index

/-- When an edge is followed. -/
inductive EdgeKind where
  | onTrue
  | onFalse
  | unconditional
  deriving DecidableEq, Repr

/-- The text of an edge kind. -/
def EdgeKind.text : EdgeKind → String
  | .onTrue => "TRUE"
  | .onFalse => "FALSE"
  | .unconditional => "UNCONDITIONAL"

/-- The place of an edge kind in the order of edges. -/
def EdgeKind.order : EdgeKind → Nat
  | .onTrue => 0
  | .onFalse => 1
  | .unconditional => 2

/-- All edge kinds, in their order. -/
def EdgeKind.all : List EdgeKind :=
  [.onTrue, .onFalse, .unconditional]

/-- An edge between two blocks of one graph, given by their places. -/
structure Edge where
  source : Nat
  target : Nat
  kind : EdgeKind
  deriving DecidableEq, Repr

/-- Edges out of one block are ordered by kind, then by target. -/
def Edge.notAfter (first second : Edge) : Bool :=
  first.kind.order < second.kind.order ||
    (first.kind.order == second.kind.order && first.target ≤ second.target)

/-- Put an edge in its place in an ordered list. -/
def Edge.insert (edge : Edge) : List Edge → List Edge
  | [] => [edge]
  | other :: rest =>
    if edge.notAfter other then edge :: other :: rest
    else other :: Edge.insert edge rest

/-- The edges in order, with multiplicity. -/
def Edge.sort (edges : List Edge) : List Edge :=
  edges.foldr Edge.insert []

/-! ## Graphs -/

/-- A flow graph. -/
structure FlowGraph where
  id : Nat
  parameters : List Variable
  returns : List Expression
  inner : List (Option Operation)
  edges : List Edge
  deriving DecidableEq, Repr

namespace FlowGraph

/-- The graph with entry and exit only. -/
def start (id : Nat) (parameters : List Variable) (returns : List Expression) :
    FlowGraph :=
  ⟨id, parameters, returns, [], []⟩

/-- The number of blocks. -/
def size (graph : FlowGraph) : Nat :=
  graph.inner.length + 2

/-- The handle of the block at a place. -/
def handle (graph : FlowGraph) (index : Nat) : BlockId :=
  ⟨graph.id, index⟩

/-- The entry block. -/
def entry (graph : FlowGraph) : BlockId := graph.handle 0

/-- The exit block. -/
def exit (graph : FlowGraph) : BlockId := graph.handle 1

/-- All blocks, in order of creation. -/
def blocks (graph : FlowGraph) : List BlockId :=
  (List.range graph.size).map graph.handle

/-- Is this a block of the graph? -/
def contains (graph : FlowGraph) (block : BlockId) : Bool :=
  block.graph == graph.id && block.index < graph.size

/-- The block behind a handle. -/
def block? (graph : FlowGraph) (block : BlockId) : Option Block :=
  if graph.contains block then
    match block.index with
    | 0 => some (.entry graph.parameters)
    | 1 => some (.exit graph.returns)
    | place + 2 => graph.inner[place]?.map .inner
  else none

/-- The operation of a block. -/
def operation? (graph : FlowGraph) (block : BlockId) : Option Operation :=
  (graph.block? block).bind Block.operation?

/-- The edges out of a block, by kind and then by target. -/
def edgesFrom (graph : FlowGraph) (block : BlockId) :
    List (EdgeKind × BlockId) :=
  if graph.contains block then
    (Edge.sort (graph.edges.filter (fun edge => edge.source == block.index))).map
      (fun edge => (edge.kind, graph.handle edge.target))
  else []

/-- The targets of the edges of one kind out of a block, in order. -/
def targetsBy (graph : FlowGraph) (block : BlockId) (kind : EdgeKind) :
    List BlockId :=
  ((graph.edgesFrom block).filter (fun edge => edge.1 == kind)).map Prod.snd

/-- The first target of the given kind. -/
def successor? (graph : FlowGraph) (block : BlockId) (kind : EdgeKind) :
    Option BlockId :=
  (graph.targetsBy block kind).head?

/-- The targets of all edges out of a block, with multiplicity. -/
def successors (graph : FlowGraph) (block : BlockId) : List BlockId :=
  (graph.edgesFrom block).map Prod.snd

/-- The blocks with an edge to a block, each once, in order of creation. -/
def predecessors (graph : FlowGraph) (block : BlockId) : List BlockId :=
  if graph.contains block then
    graph.blocks.filter (fun origin =>
      graph.edges.any (fun edge =>
        edge.source == origin.index && edge.target == block.index))
  else []

end FlowGraph

end FlowWitness.Graph
