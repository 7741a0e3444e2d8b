import FlowWitness.Graph.Basic

/-!
# Successor shapes

A block is followed by nothing, by one block, or by the two sides of a
branch.  Any other set of edges is malformed; where several faults meet, a
repeated kind is reported before a mixture, and a mixture before a branch
with one side.
-/

namespace FlowWitness.Graph

/-- Why a graph, or a step that builds one, is refused. -/
inductive GraphError where
  | unknownBlock (block : BlockId)
  | mixedSuccessors (block : BlockId)
  | duplicateSuccessor (block : BlockId) (kind : EdgeKind)
  | unpairedBranch (block : BlockId) (present : EdgeKind)
  deriving DecidableEq, Repr

/-- The name of a graph error. -/
def GraphError.code : GraphError → String
  | .unknownBlock _ => "UnknownBlock"
  | .mixedSuccessors _ => "MixedSuccessors"
  | .duplicateSuccessor _ _ => "DuplicateSuccessor"
  | .unpairedBranch _ _ => "UnpairedBranch"

/-- The text of a graph error. -/
def GraphError.message : GraphError → String
  | .unknownBlock block => "unknown block " ++ block.text
  | .mixedSuccessors block =>
    "block " ++ block.text ++ " mixes unconditional and conditional successors"
  | .duplicateSuccessor block kind =>
    "block " ++ block.text ++ " has more than one " ++ kind.text ++ " successor"
  | .unpairedBranch block present =>
    "block " ++ block.text ++ " has a " ++ present.text ++
      " successor without its paired branch"

/-- What follows a block. -/
inductive Successors where
  | none
  | unconditional (next : BlockId)
  | branch (onTrue onFalse : BlockId)
  deriving DecidableEq, Repr

namespace FlowGraph

/-- What follows a block, if its edges have one of the three shapes. -/
def successorShape (graph : FlowGraph) (block : BlockId) :
    Except GraphError Successors :=
  if graph.contains block then
    match graph.targetsBy block .onTrue, graph.targetsBy block .onFalse,
      graph.targetsBy block .unconditional with
    | _ :: _ :: _, _, _ => .error (.duplicateSuccessor block .onTrue)
    | _, _ :: _ :: _, _ => .error (.duplicateSuccessor block .onFalse)
    | _, _, _ :: _ :: _ => .error (.duplicateSuccessor block .unconditional)
    | [], [], [] => .ok .none
    | [], [], [next] => .ok (.unconditional next)
    | [onTrue], [onFalse], [] => .ok (.branch onTrue onFalse)
    | _, _, [_] => .error (.mixedSuccessors block)
    | [_], [], [] => .error (.unpairedBranch block .onTrue)
    | [], [_], [] => .error (.unpairedBranch block .onFalse)
  else .error (.unknownBlock block)

/-- The fault of the first block, in order of creation, that has one. -/
def firstFault? (graph : FlowGraph) : Option GraphError :=
  graph.blocks.findSome? (fun block =>
    match graph.successorShape block with
    | .ok _ => none
    | .error fault => some fault)

/-- Check that every block has one of the three shapes. -/
def validate (graph : FlowGraph) : Except GraphError Unit :=
  match graph.firstFault? with
  | none => .ok ()
  | some fault => .error fault

end FlowGraph

end FlowWitness.Graph
