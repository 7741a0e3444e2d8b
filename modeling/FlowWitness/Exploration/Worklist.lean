import FlowWitness.Graph.Basic

/-!
# Worklist

States that wait for their block, grouped by rank.  Taking from the worklist
hands out everything queued at the lowest rank at once, so that the states
arriving at one block are merged together.
-/

namespace FlowWitness.Exploration

open FlowWitness.Graph

/-- The states queued at one rank, and the block of the first of them. -/
structure Batch (State : Type) where
  rank : Nat
  block : BlockId
  states : List State
  deriving DecidableEq, Repr

/-- The batches in order of rank, and how many states they hold together. -/
structure Worklist (State : Type) where
  batches : List (Batch State)
  size : Nat
  deriving DecidableEq, Repr

namespace Worklist

variable {State : Type}

/-- Nothing waits. -/
def empty : Worklist State := ⟨[], 0⟩

/-- Does nothing wait? -/
def isEmpty (worklist : Worklist State) : Bool :=
  worklist.batches.isEmpty

/-- Add a state to the batch of its rank, or open the batch. -/
def enqueue (rank : Nat) (block : BlockId) (state : State) :
    List (Batch State) → List (Batch State)
  | [] => [⟨rank, block, [state]⟩]
  | batch :: rest =>
    if batch.rank = rank then
      { batch with states := batch.states ++ [state] } :: rest
    else if rank < batch.rank then ⟨rank, block, [state]⟩ :: batch :: rest
    else batch :: enqueue rank block state rest

/-- Queue a state for a block at a rank. -/
def push (worklist : Worklist State) (rank : Nat) (block : BlockId)
    (state : State) : Worklist State :=
  ⟨enqueue rank block state worklist.batches, worklist.size + 1⟩

/-- Take the batch of the lowest rank. -/
def pop? (worklist : Worklist State) :
    Option (Batch State × Worklist State) :=
  match worklist.batches with
  | [] => none
  | batch :: rest => some (batch, ⟨rest, worklist.size - batch.states.length⟩)

end Worklist

end FlowWitness.Exploration
