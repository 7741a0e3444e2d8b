import FlowWitness.Exploration.ConditionStack
import FlowWitness.Exploration.Encoding

/-!
# Path states

A state stands for all paths that arrive at a block along one edge.  The
states that arrive together are merged into one: the latest version of every
symbol, the union of their conditions, and one implication for the join, which
says that whoever is at the block on this visit came along one of the edges.
-/

namespace FlowWitness.Exploration

open FlowWitness.Graph
open FlowWitness.Smt

/--
The edge a state came along: the marker of the visit it left, the condition
under which the edge is taken, and the versions at its end.
-/
structure PendingEdge where
  sourceMarker : Term
  condition : Term
  versions : VersionMap
  deriving DecidableEq, Repr

/-- A state on its way to a block. -/
structure PathState where
  block : BlockId
  versions : VersionMap
  conditions : ConditionStack
  pending : Option PendingEdge
  deriving DecidableEq, Repr

namespace PathState

/-- The state a search starts from. -/
def seed (entry : BlockId) (versions : VersionMap) : PathState :=
  ⟨entry, versions, .empty, none⟩

end PathState

/-! ## Joins -/

/-- The merged version of a symbol is the one at the end of the edge. -/
def joinEquation? (own : VersionMap) (entry : SymbolKey × Nat) : Option Term :=
  let (key, merged) := entry
  if own.get key = merged then none
  else some (.equation (key.versioned merged) (key.versioned (own.get key)))

/-- What holds if the block was reached along an edge. -/
def edgeCondition (merged : VersionMap) (edge : PendingEdge) : Term :=
  .conjoin (edge.sourceMarker :: edge.condition ::
    merged.entries.filterMap (joinEquation? edge.versions))

/-- Whoever is at the block came along one of the edges. -/
def joinCondition? (marker : Term) (merged : VersionMap)
    (states : List PathState) : Option Term :=
  match states.filterMap PathState.pending with
  | [] => none
  | edges => some (.implication marker
      (.disjoin (edges.map (edgeCondition merged))))

/--
Merge the states that arrive at a block into one, drawing the numbers of new
condition nodes from the supply.
-/
def mergeStates (supply : Nat) (block : BlockId) (marker : Term)
    (states : List PathState) : PathState × Nat :=
  let versions := VersionMap.mergeAll (states.map PathState.versions)
  let (conditions, supply) :=
    ConditionStack.merge supply (states.map PathState.conditions)
  match joinCondition? marker versions states with
  | none => (⟨block, versions, conditions, none⟩, supply)
  | some join =>
    (⟨block, versions, conditions.push supply join, none⟩, supply + 1)

end FlowWitness.Exploration
