import FlowWitness.Proofs.Exploration.Accounting
import Mathlib.Data.List.DropRight

/-!
# What a worklist hands out

A worklist may be called in any order.  Whatever was pushed at a rank stays
together until the rank is popped: the batch of a rank holds the states pushed
there since it was last popped, in the order in which they were pushed.  A pop
takes the lowest rank at which anything waits, and a rank that is pushed to
again, as a loop does it, starts a new batch.

No state is lost and none is handed out twice, so the counter of the worklist
is the number of states pushed and not yet popped, and taking the length of a
batch off it never goes below zero.
-/

namespace FlowWitness.Exploration

open FlowWitness.Graph

/-! ## Calls -/

/-- A call to a worklist: push a state for its block, or pop a batch. -/
inductive QueueCall where
  | push (rank : Nat) (state : PathState)
  | pop
  deriving DecidableEq, Repr

/-- What came of a call; a pop that finds nothing changes nothing. -/
inductive QueueEvent where
  | pushed (rank : Nat) (state : PathState)
  | popped (batch : Batch PathState)
  | vacant
  deriving DecidableEq, Repr

namespace QueueCall

/-- The state that the call pushes, and its rank. -/
def push? : QueueCall → Option (Nat × PathState)
  | .push rank state => some (rank, state)
  | .pop => none

/-- What is pushed, with the ranks. -/
def pushes (calls : List QueueCall) : List (Nat × PathState) :=
  calls.filterMap push?

/-- Each rank is used with one block only. -/
def OneBlockPerRank (calls : List QueueCall) : Prop :=
  ∀ first ∈ pushes calls, ∀ second ∈ pushes calls,
    first.1 = second.1 → first.2.block = second.2.block

instance (calls : List QueueCall) : Decidable (OneBlockPerRank calls) :=
  inferInstanceAs (Decidable (∀ first ∈ pushes calls,
    ∀ second ∈ pushes calls,
      first.1 = second.1 → first.2.block = second.2.block))

end QueueCall

namespace QueueEvent

/-- The state that was pushed, if it was pushed at this rank. -/
def pushedAt? (rank : Nat) : QueueEvent → Option PathState
  | .pushed used state => if used = rank then some state else none
  | .popped _ => none
  | .vacant => none

/-- Was the rank popped? -/
def pops (rank : Nat) : QueueEvent → Bool
  | .pushed _ _ => false
  | .popped batch => batch.rank == rank
  | .vacant => false

/-- The states that were handed out. -/
def handedOut : QueueEvent → List PathState
  | .pushed _ _ => []
  | .popped batch => batch.states
  | .vacant => []

/-- The states pushed at a rank since it was last popped, in order. -/
def unpopped (rank : Nat) (history : List QueueEvent) : List PathState :=
  (history.rtakeWhile (fun event => !event.pops rank)).filterMap
    (pushedAt? rank)

theorem unpopped_concat
    (rank : Nat) (history : List QueueEvent) (event : QueueEvent) :
    unpopped rank (history ++ [event]) =
      if event.pops rank then []
      else unpopped rank history ++ (event.pushedAt? rank).toList := by
  rw [unpopped, List.rtakeWhile_concat]
  cases event.pops rank with
  | true => rfl
  | false =>
      simp only [Bool.not_false, if_true, Bool.false_eq_true, if_false,
        List.filterMap_append]
      rw [unpopped]
      cases found : event.pushedAt? rank <;> simp [found]

/-- What waits from a rank was pushed at it. -/
theorem pushed_mem_of_mem_unpopped
    {rank : Nat} {history : List QueueEvent} {state : PathState}
    (member : state ∈ unpopped rank history) :
    .pushed rank state ∈ history := by
  rcases List.mem_filterMap.mp member with ⟨event, recent, found⟩
  have inside : event ∈ history :=
    (List.rtakeWhile_suffix _ history).subset recent
  cases event with
  | pushed used queued =>
      simp only [pushedAt?, Option.ite_none_right_eq_some,
        Option.some.injEq] at found
      rcases found with ⟨rfl, rfl⟩
      exact inside
  | popped batch => simp [pushedAt?] at found
  | vacant => simp [pushedAt?] at found

end QueueEvent

namespace Worklist

/-- Make a call. -/
def perform (worklist : Worklist PathState) :
    QueueCall → QueueEvent × Worklist PathState
  | .push rank state =>
    (.pushed rank state, worklist.push rank state.block state)
  | .pop =>
    match worklist.pop? with
    | some (batch, rest) => (.popped batch, rest)
    | none => (.vacant, worklist)

/-- Make calls in order, with the history of what came of them. -/
def performAll (worklist : Worklist PathState) :
    List QueueCall → List QueueEvent × Worklist PathState
  | [] => ([], worklist)
  | call :: rest =>
    let (event, next) := worklist.perform call
    let (events, final) := next.performAll rest
    (event :: events, final)

/-! ## The states at one rank -/

section

variable {State : Type}

/-- The states that wait at a rank. -/
def queuedAt (rank : Nat) (batches : List (Batch State)) : List State :=
  (batches.filter (fun batch => batch.rank == rank)).flatMap Batch.states

theorem queuedAt_cons
    (rank : Nat) (batch : Batch State) (rest : List (Batch State)) :
    queuedAt rank (batch :: rest) =
      (if batch.rank = rank then batch.states else []) ++
        queuedAt rank rest := by
  rw [queuedAt, List.filter_cons]
  by_cases same : batch.rank = rank
  · simp [same, queuedAt]
  · simp [same, queuedAt]

theorem queuedAt_eq_nil
    {rank : Nat} {batches : List (Batch State)}
    (above : ∀ batch ∈ batches, rank < batch.rank) :
    queuedAt rank batches = [] := by
  have none : batches.filter (fun batch => batch.rank == rank) = [] := by
    rw [List.filter_eq_nil_iff]
    intro batch member
    simp [Nat.ne_of_gt (above batch member)]
  rw [queuedAt, none, List.flatMap_nil]

/-- A pushed state comes last at its rank, and nothing else moves. -/
theorem queuedAt_enqueue
    {batches : List (Batch State)} (ordered : InOrder batches)
    (rank used : Nat) (block : BlockId) (state : State) :
    queuedAt rank (enqueue used block state batches) =
      queuedAt rank batches ++ if used = rank then [state] else [] := by
  induction batches with
  | nil => rw [enqueue, queuedAt_cons]; simp [queuedAt]
  | cons first rest induction =>
      rw [InOrder, List.pairwise_cons] at ordered
      rw [enqueue, queuedAt_cons]
      split
      · next same =>
          rw [queuedAt_cons]
          by_cases here : used = rank
          · have others : queuedAt rank rest = [] :=
              queuedAt_eq_nil (by rw [← here, ← same]; exact ordered.1)
            simp [same, here, others]
          · simp [same, here]
      · split
        · next different below =>
            rw [queuedAt_cons, queuedAt_cons]
            by_cases here : used = rank
            · have others : queuedAt rank rest = [] :=
                queuedAt_eq_nil (fun batch member => by
                  rw [← here]
                  exact Nat.lt_trans below (ordered.1 batch member))
              have first : first.rank ≠ rank := here ▸ different
              simp [here, first, others]
            · simp [here]
        · rw [queuedAt_cons, induction ordered.2, List.append_assoc]

end

/-! ## One call -/

/-- A worklist holds what its history leaves to be handed out. -/
structure Faithful (history : List QueueEvent)
    (worklist : Worklist PathState) : Prop where
  ordered : InOrder worklist.batches
  sized : worklist.Sized
  headed : ∀ batch ∈ worklist.batches,
    batch.states.head?.map PathState.block = some batch.block
  held : ∀ rank,
    QueueEvent.unpopped rank history = queuedAt rank worklist.batches

theorem faithful_empty : Faithful [] empty where
  ordered := List.Pairwise.nil
  sized := rfl
  headed := by simp [empty]
  held := fun _ => rfl

namespace Faithful

variable {history : List QueueEvent} {worklist rest : Worklist PathState}
  {batch : Batch PathState}

theorem push
    (faithful : Faithful history worklist) (rank : Nat) (state : PathState) :
    Faithful (history ++ [.pushed rank state])
      (worklist.push rank state.block state) where
  ordered := faithful.ordered.enqueue rank state.block state
  sized := faithful.sized.push rank state.block state
  headed := by
    intro batch member
    rcases mem_enqueue member with old | rfl | ⟨old, inside, _, rfl⟩
    · exact faithful.headed batch old
    · rfl
    · have first := faithful.headed old inside
      cases states : old.states with
      | nil => simp [states] at first
      | cons head tail => simpa [states] using first
  held := by
    intro other
    rw [QueueEvent.unpopped_concat, faithful.held, Worklist.push,
      queuedAt_enqueue faithful.ordered]
    by_cases same : rank = other
    · simp [QueueEvent.pops, QueueEvent.pushedAt?, same]
    · simp [QueueEvent.pops, QueueEvent.pushedAt?, same]

/-- Nothing but the popped batch waits at its rank. -/
theorem queuedAt_of_pop
    (faithful : Faithful history worklist)
    (popped : worklist.pop? = some (batch, rest)) (rank : Nat) :
    queuedAt rank worklist.batches =
        (if batch.rank = rank then batch.states else []) ++
          queuedAt rank rest.batches ∧
      queuedAt batch.rank rest.batches = [] := by
  rw [pop?_eq_some popped, queuedAt_cons]
  exact ⟨rfl, queuedAt_eq_nil (faithful.ordered.of_pop popped).1⟩

theorem pop
    (faithful : Faithful history worklist)
    (popped : worklist.pop? = some (batch, rest)) :
    Faithful (history ++ [.popped batch]) rest where
  ordered := (faithful.ordered.of_pop popped).2
  sized := faithful.sized.of_pop popped
  headed := by
    intro other member
    apply faithful.headed
    rw [pop?_eq_some popped]
    exact List.mem_cons_of_mem _ member
  held := by
    intro rank
    rcases faithful.queuedAt_of_pop popped rank with ⟨before, alone⟩
    rw [QueueEvent.unpopped_concat, faithful.held, before]
    by_cases same : batch.rank = rank
    · subst same
      simp [QueueEvent.pops, alone]
    · simp [QueueEvent.pops, QueueEvent.pushedAt?, same]

theorem idle (faithful : Faithful history worklist) :
    Faithful (history ++ [.vacant]) worklist where
  ordered := faithful.ordered
  sized := faithful.sized
  headed := faithful.headed
  held := by
    intro rank
    rw [QueueEvent.unpopped_concat, faithful.held]
    simp [QueueEvent.pops, QueueEvent.pushedAt?]

theorem perform
    (faithful : Faithful history worklist) (call : QueueCall) :
    Faithful (history ++ [(worklist.perform call).1])
      (worklist.perform call).2 := by
  cases call with
  | push rank state => exact faithful.push rank state
  | pop =>
      rw [Worklist.perform]
      cases popped : worklist.pop? with
      | none => exact faithful.idle
      | some taken => exact faithful.pop popped

/-! ## All calls -/

theorem performAll
    (faithful : Faithful history worklist) (calls : List QueueCall) :
    Faithful (history ++ (worklist.performAll calls).1)
      (worklist.performAll calls).2 := by
  induction calls generalizing history worklist with
  | nil => simpa [Worklist.performAll] using faithful
  | cons call rest induction =>
      have further := induction (faithful.perform call)
      rwa [List.append_assoc] at further

/-- A popped batch is what was left at the lowest rank. -/
theorem of_pop
    (faithful : Faithful history worklist)
    (popped : worklist.pop? = some (batch, rest)) :
    batch.states = QueueEvent.unpopped batch.rank history ∧
      batch.states ≠ [] ∧
      ∀ rank, QueueEvent.unpopped rank history ≠ [] → batch.rank ≤ rank := by
  refine ⟨?_, ?_, ?_⟩
  · rcases faithful.queuedAt_of_pop popped batch.rank with ⟨here, alone⟩
    rw [faithful.held, here, alone]
    simp
  · intro none
    have headed := faithful.headed batch (mem_batches_of_pop popped)
    simp [none] at headed
  · intro rank waits
    by_contra below
    apply waits
    rw [faithful.held, pop?_eq_some popped]
    apply queuedAt_eq_nil
    intro other member
    rcases List.mem_cons.mp member with rfl | later
    · exact Nat.lt_of_not_le below
    · exact Nat.lt_trans (Nat.lt_of_not_le below)
        ((faithful.ordered.of_pop popped).1 other later)

theorem isEmpty_iff_size_eq_zero
    (faithful : Faithful history worklist) :
    worklist.isEmpty = true ↔ worklist.size = 0 := by
  rw [faithful.sized, Worklist.isEmpty, List.isEmpty_iff,
    List.length_eq_zero_iff]
  constructor
  · intro none
    rw [waiting, none, List.flatMap_nil]
  · intro none
    cases batches : worklist.batches with
    | nil => rfl
    | cons batch rest =>
        have headed := faithful.headed batch (by simp [batches])
        rw [waiting, batches, List.flatMap_cons] at none
        simp [(List.append_eq_nil_iff.mp none).1] at headed

end Faithful

/-- A push is recorded as it was made. -/
theorem mem_pushes_of_pushed
    {worklist : Worklist PathState} {calls : List QueueCall}
    {rank : Nat} {state : PathState}
    (member : .pushed rank state ∈ (worklist.performAll calls).1) :
    (rank, state) ∈ QueueCall.pushes calls := by
  induction calls generalizing worklist with
  | nil => simp [performAll] at member
  | cons call rest induction =>
      cases call with
      | push used queued =>
          rcases List.mem_cons.mp member with same | later
          · cases same
            exact List.mem_cons_self
          · exact List.mem_cons_of_mem _ (induction later)
      | pop =>
          rcases List.mem_cons.mp member with same | later
          · cases popped : worklist.pop? <;> simp [popped] at same
          · exact induction later

/-- What was there and what was pushed has been handed out, or waits. -/
theorem perm_performAll
    (worklist : Worklist PathState) (calls : List QueueCall) :
    ((QueueCall.pushes calls).map Prod.snd ++ worklist.waiting).Perm
      ((worklist.performAll calls).1.flatMap QueueEvent.handedOut ++
        (worklist.performAll calls).2.waiting) := by
  induction calls generalizing worklist with
  | nil => exact .refl _
  | cons call rest induction =>
      have further := induction (worklist.perform call).2
      cases call with
      | push rank state =>
          refine List.Perm.trans ?_ further
          have joined := waiting_enqueue_perm rank state.block state
            worklist.batches
          exact List.perm_middle.symm.trans (joined.symm.append_left _)
      | pop =>
          cases popped : worklist.pop? with
          | none =>
              rw [performAll]
              simp only [perform, popped] at further ⊢
              exact further
          | some taken =>
              rcases taken with ⟨batch, left⟩
              rw [performAll]
              simp only [perform, popped] at further ⊢
              rw [waiting_of_pop popped, List.flatMap_cons, List.append_assoc]
              have moved : ((QueueCall.pushes rest).map Prod.snd ++
                  (batch.states ++ left.waiting)).Perm
                  (batch.states ++ ((QueueCall.pushes rest).map Prod.snd ++
                    left.waiting)) := by
                rw [← List.append_assoc, ← List.append_assoc]
                exact List.perm_append_comm.append_right _
              exact moved.trans (further.append_left batch.states)

end Worklist

/--
After any calls in which each rank is used with one block, a pop finds nothing
only if everything pushed has been popped, and otherwise hands out the lowest
rank at which anything is left: exactly the states pushed there since it was
last popped, in the order of the pushes, and all for the block of the batch.
The states pushed are those handed out and those that wait, each as often as
it was pushed, and the counter is the number of those that wait.
-/
theorem worklist_conserves_states
    {calls : List QueueCall} (apart : QueueCall.OneBlockPerRank calls)
    {history : List QueueEvent} {worklist : Worklist PathState}
    (performed : Worklist.empty.performAll calls = (history, worklist)) :
    (worklist.pop? = none ↔ ∀ rank, QueueEvent.unpopped rank history = []) ∧
    (∀ batch rest, worklist.pop? = some (batch, rest) →
      batch.states = QueueEvent.unpopped batch.rank history ∧
        batch.states ≠ [] ∧
        (∀ rank, QueueEvent.unpopped rank history ≠ [] → batch.rank ≤ rank) ∧
        (∀ state ∈ batch.states, state.block = batch.block) ∧
        batch.states.length ≤ worklist.size) ∧
    ((QueueCall.pushes calls).map Prod.snd).Perm
      (history.flatMap QueueEvent.handedOut ++ worklist.waiting) ∧
    worklist.size + (history.flatMap QueueEvent.handedOut).length =
      ((QueueCall.pushes calls).map Prod.snd).length ∧
    (worklist.isEmpty = true ↔ worklist.size = 0) := by
  have faithful : Worklist.Faithful history worklist := by
    have run := Worklist.faithful_empty.performAll calls
    rwa [performed] at run
  have conserved : ((QueueCall.pushes calls).map Prod.snd).Perm
      (history.flatMap QueueEvent.handedOut ++ worklist.waiting) := by
    have run := Worklist.perm_performAll .empty calls
    rw [performed] at run
    simpa [Worklist.waiting, Worklist.empty] using run
  refine ⟨?_, ?_, conserved, ?_, faithful.isEmpty_iff_size_eq_zero⟩
  · constructor
    · intro none rank
      rw [faithful.held, Worklist.pop?_eq_none none]
      rfl
    · intro none
      cases popped : worklist.pop? with
      | none => rfl
      | some taken =>
          have left := faithful.of_pop popped
          exact absurd (left.1.trans (none _)) left.2.1
  · intro batch rest popped
    rcases faithful.of_pop popped with ⟨states, some, lowest⟩
    refine ⟨states, some, lowest, ?_, ?_⟩
    · have used : ∀ state ∈ batch.states,
          (batch.rank, state) ∈ QueueCall.pushes calls := by
        intro state member
        rw [states] at member
        have recorded := QueueEvent.pushed_mem_of_mem_unpopped member
        have events : history = (Worklist.empty.performAll calls).1 := by
          rw [performed]
        exact Worklist.mem_pushes_of_pushed (events ▸ recorded)
      have headed := faithful.headed batch (Worklist.mem_batches_of_pop popped)
      rcases Option.map_eq_some_iff.mp headed with ⟨first, leads, blocks⟩
      intro state member
      rw [← blocks]
      exact apart _ (used state member) _
        (used first (List.mem_of_head? leads)) rfl
    · rw [faithful.sized, Worklist.waiting_of_pop popped, List.length_append]
      exact Nat.le_add_right _ _
  · rw [faithful.sized, conserved.length_eq, List.length_append]
    exact Nat.add_comm _ _

/-- A state that arrives at a block, told apart by a version. -/
def arrival (place version : Nat) : PathState :=
  .seed ⟨0, place⟩ (VersionMap.empty.insert ⟨"n!0", .bool⟩ version)

/-- Block 2 heads a loop: its rank is popped, and pushed to again. -/
def revisiting : List QueueCall :=
  [.push 5 (arrival 3 0), .push 2 (arrival 2 1), .push 5 (arrival 3 2), .pop,
    .push 2 (arrival 2 3), .push 2 (arrival 2 4)]

/-- The next pop hands out the two late states and not the one popped before. -/
theorem revisited_rank_starts_anew :
    QueueCall.OneBlockPerRank revisiting ∧
      ∃ history worklist rest,
        Worklist.empty.performAll revisiting = (history, worklist) ∧
        worklist.pop? =
          some (⟨2, ⟨0, 2⟩, [arrival 2 3, arrival 2 4]⟩, rest) ∧
        QueueEvent.unpopped 2 history = [arrival 2 3, arrival 2 4] ∧
        worklist.size = 4 := by
  have apart : QueueCall.OneBlockPerRank revisiting := by decide
  refine ⟨apart, _, _, _, rfl, rfl, ?_, rfl⟩
  exact ((worklist_conserves_states apart rfl).2.1 _ _ rfl).1.symm

end FlowWitness.Exploration
