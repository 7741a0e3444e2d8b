import FlowWitness.Smt.Term

/-!
# Condition stacks

The conditions gathered along the paths to a block.  Stacks share their lower
parts, so every node has an identity: two nodes with the same condition are
still two nodes, and the number of a node, drawn from a supply, tells them
apart.  Merging keeps the longest stack as it is and pushes, as new nodes,
what the other stacks have above the first node already met.
-/

namespace FlowWitness.Exploration

open FlowWitness.Smt

/-- A condition with the number of its node. -/
structure ConditionNode where
  id : Nat
  term : Term
  deriving DecidableEq, Repr

/-- A stack of conditions, the top one first. -/
structure ConditionStack where
  nodes : List ConditionNode
  deriving DecidableEq, Repr

namespace ConditionStack

/-- The stack without conditions. -/
def empty : ConditionStack := ⟨[]⟩

/-- The number of conditions. -/
def size (stack : ConditionStack) : Nat := stack.nodes.length

/-- The conditions from bottom to top. -/
def terms (stack : ConditionStack) : List Term :=
  (stack.nodes.map ConditionNode.term).reverse

/-- All conditions as one. -/
def conjunction (stack : ConditionStack) : Term :=
  Term.conjoin stack.terms

/-- Push a condition as the node with the given number. -/
def push (stack : ConditionStack) (id : Nat) (term : Term) : ConditionStack :=
  ⟨⟨id, term⟩ :: stack.nodes⟩

/-- Have both stacks the same top node, or neither any? -/
def sharesTop (first second : ConditionStack) : Bool :=
  first.nodes.head?.map ConditionNode.id ==
    second.nodes.head?.map ConditionNode.id

/-- The longer stack; of two of the same length, the second. -/
def longer (first second : ConditionStack) : ConditionStack :=
  if first.size ≤ second.size then second else first

/-- The longest of the stacks, the last one if there are several. -/
def longest (sources : List ConditionStack) : ConditionStack :=
  sources.foldl longer empty

end ConditionStack

/-- A merge in progress. -/
structure StackMerge where
  merged : ConditionStack
  seen : List Nat
  supply : Nat
  deriving DecidableEq, Repr

namespace StackMerge

/-- Push the condition of a node as a new node. -/
def adopt (progress : StackMerge) (node : ConditionNode) : StackMerge :=
  { progress with
    merged := progress.merged.push progress.supply node.term
    supply := progress.supply + 1 }

/--
Take in one stack: the nodes above the first one already seen are pushed in
their own order, the lowest first.
-/
def absorb (progress : StackMerge) (stack : ConditionStack) : StackMerge :=
  let missing := stack.nodes.takeWhile (fun node =>
    !progress.seen.contains node.id)
  let extended := missing.foldr (fun node soFar => soFar.adopt node) progress
  { extended with seen := progress.seen ++ missing.map ConditionNode.id }

end StackMerge

namespace ConditionStack

/--
Merge stacks into one, drawing the numbers of new nodes from the supply.  The
supply is returned as the merge leaves it.
-/
def merge (supply : Nat) (sources : List ConditionStack) :
    ConditionStack × Nat :=
  let base := longest sources
  let final := sources.foldl StackMerge.absorb
    ⟨base, base.nodes.map ConditionNode.id, supply⟩
  (final.merged, final.supply)

end ConditionStack

end FlowWitness.Exploration
