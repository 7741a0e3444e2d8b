import FlowWitness.Proofs.Exploration.SearchLog
import FlowWitness.Proofs.Smt.Signatures

/-!
# Everything said to the solver is well sorted

Terms are built without a check of their sorts.  What a search asserts is well
sorted because the encoding of an operation refuses operands that do not fit,
and because everything the search puts together from such encodings is a
condition: the effects and branch conditions of blocks, the equations between
versions at a join, and the implications that tie them to markers.  What it
evaluates is version zero of a parameter.
-/

namespace FlowWitness.Exploration

open FlowWitness.Graph
open FlowWitness.Program
open FlowWitness.Smt
open FlowWitness.Solver
open FlowWitness.Solver.Conversation

/--
The term of the call obeys the signatures at every node, and is a truth value
if it is asserted.
-/
def SortedCall : Interaction → Prop
  | .asserted term _ =>
    term.sort = .bool ∧ ∀ node ∈ term.subterms, node.Fits
  | .evaluated term _ => ∀ node ∈ term.subterms, node.Fits
  | .opened _ | .checked _ | .closed _ => True

variable {State : Type} {problem : Problem}

theorem sortedCall_of_asks
    {parameters : List Variable} {terms : List Term}
    (conditions : ∀ term ∈ terms, term.IsCondition)
    {call : Interaction} (asks : Asks parameters terms call) :
    SortedCall call := by
  cases call with
  | asserted term answer =>
      have condition := conditions term asks
      exact ⟨condition.boolean, condition.wellSorted.fits_subterms⟩
  | evaluated term answer =>
      rcases asks with ⟨parameter, _, key, found, rfl⟩
      exact (wellSorted_versioned found 0).fits_subterms
  | opened answer => trivial
  | checked answer => trivial
  | closed answer => trivial

/-- A step makes sorted calls only. -/
theorem Problem.Searched.sortedCalls
    {solver : Backend State} {run : Run}
    (searched : problem.Searched solver run)
    {batch : Batch PathState} {rest : Worklist PathState}
    (popped : run.worklist.pop? = some (batch, rest)) :
    CallsOnly SortedCall (problem.step solver (run.leaving rest) batch) :=
  (callsOnly_step solver _ _).mono fun _ =>
    sortedCall_of_asks (searched.tidy.isCondition_asked popped)

theorem sortedCalls_explore
    (solver : Backend State) (graph : FlowGraph) (targets : List BlockId)
    (maxVisits : Nat) :
    CallsOnly SortedCall (explore solver graph targets maxVisits) :=
  Problem.callsOnly_explore fun searched popped => searched.sortedCalls popped

/--
Whatever the graph, the targets, the bound and the answers of the solver, the
search asserts and evaluates well-sorted terms only.
-/
theorem every_call_sorted
    {State : Type} (solver : Backend State) (graph : FlowGraph)
    (targets : List BlockId) (maxVisits : Nat) (start : State) :
    ∀ call ∈ (explore solver graph targets maxVisits (.start start)).2.calls,
      SortedCall call :=
  (sortedCalls_explore solver graph targets maxVisits).keeps
    (by simp [Dialogue.start])

/-- The parameter of the graph below. -/
def addend : Variable := ⟨0, "addend", .integer false 8⟩

/-- What the graph below computes. -/
def total : Variable := ⟨1, "total", .integer false 8⟩

/-- Adds one to the parameter on the way to the exit. -/
def plusOne : FlowGraph where
  id := 0
  parameters := [addend]
  returns := []
  inner := [some (.assign total
    (.binary .add (.var addend) (.constant (.unsigned 1 8))))]
  edges := [⟨0, 2, .unconditional⟩, ⟨2, 1, .unconditional⟩]

/-- The sum is asserted with the operands and the result that addition has. -/
theorem plusOne_call_sorted :
    ∃ call ∈
        (explore (oneVerdict .sat) plusOne [plusOne.exit] 1
          (.start .none)).2.calls,
      call.asserted? = some (.implication (reachMarker plusOne.exit 0)
        (.conjunction (reachMarker (plusOne.handle 2) 0)
          (.equation (.constant "total!1@1" (.bitVec 8))
            (.applyBinary .bvAdd (.constant "addend!0@0" (.bitVec 8))
              (.bitVec 1 8))))) ∧
      SortedCall call := by
  have asserted : .implication (reachMarker plusOne.exit 0)
      (.conjunction (reachMarker (plusOne.handle 2) 0)
        (.equation (.constant "total!1@1" (.bitVec 8))
          (.applyBinary .bvAdd (.constant "addend!0@0" (.bitVec 8))
            (.bitVec 1 8)))) ∈
      (explore (oneVerdict .sat) plusOne [plusOne.exit] 1
        (.start .none)).2.calls.filterMap Interaction.asserted? := by
    decide +kernel
  rcases List.mem_filterMap.mp asserted with ⟨call, member, same⟩
  exact ⟨call, member, same, every_call_sorted (oneVerdict .sat) plusOne
    [plusOne.exit] 1 .none call member⟩

end FlowWitness.Exploration
