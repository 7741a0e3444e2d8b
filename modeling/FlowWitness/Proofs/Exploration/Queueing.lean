import FlowWitness.Exploration.Search

/-!
# Queueing

What waits in a worklist, and how queueing a state changes it: the state joins
the batch of its rank, or opens one, and nothing else moves.
-/

namespace FlowWitness.Exploration

open FlowWitness.Graph

namespace Worklist

variable {State : Type}

/-- All states that wait, in order of rank. -/
def waiting (worklist : Worklist State) : List State :=
  worklist.batches.flatMap Batch.states

theorem mem_waiting {worklist : Worklist State} {state : State} :
    state ∈ worklist.waiting ↔
      ∃ batch ∈ worklist.batches, state ∈ batch.states := by
  simp [waiting, List.mem_flatMap]

theorem pop?_eq_some
    {worklist rest : Worklist State} {batch : Batch State}
    (popped : worklist.pop? = some (batch, rest)) :
    worklist.batches = batch :: rest.batches := by
  unfold pop? at popped
  split at popped
  · simp at popped
  · next first others shape =>
      simp only [Option.some.injEq, Prod.mk.injEq] at popped
      rcases popped with ⟨rfl, rfl⟩
      exact shape

theorem mem_batches_of_pop
    {worklist rest : Worklist State} {batch : Batch State}
    (popped : worklist.pop? = some (batch, rest)) :
    batch ∈ worklist.batches := by
  rw [pop?_eq_some popped]
  exact List.mem_cons_self

/-- What waits is the first batch and what is left behind it. -/
theorem waiting_of_pop
    {worklist rest : Worklist State} {batch : Batch State}
    (popped : worklist.pop? = some (batch, rest)) :
    worklist.waiting = batch.states ++ rest.waiting := by
  rw [waiting, pop?_eq_some popped, List.flatMap_cons, waiting]

theorem pop?_eq_none
    {worklist : Worklist State} (empty : worklist.pop? = none) :
    worklist.batches = [] := by
  unfold pop? at empty
  split at empty
  · assumption
  · simp at empty

/-- A batch after queueing is an old one, a new one, or an extended one. -/
theorem mem_enqueue
    {rank : Nat} {block : BlockId} {state : State}
    {batches : List (Batch State)} {batch : Batch State}
    (member : batch ∈ enqueue rank block state batches) :
    batch ∈ batches ∨ batch = ⟨rank, block, [state]⟩ ∨
      ∃ old ∈ batches, old.rank = rank ∧
        batch = { old with states := old.states ++ [state] } := by
  induction batches with
  | nil =>
      rw [enqueue, List.mem_singleton] at member
      exact Or.inr (Or.inl member)
  | cons first rest induction =>
      rw [enqueue] at member
      split at member
      · next same =>
          rcases List.mem_cons.mp member with rfl | later
          · exact Or.inr (Or.inr ⟨first, List.mem_cons_self, same, rfl⟩)
          · exact Or.inl (List.mem_cons_of_mem _ later)
      · split at member
        · rcases List.mem_cons.mp member with rfl | later
          · exact Or.inr (Or.inl rfl)
          · exact Or.inl later
        · rcases List.mem_cons.mp member with rfl | later
          · exact Or.inl List.mem_cons_self
          · rcases induction later with old | new | ⟨old, inside, same, rfl⟩
            · exact Or.inl (List.mem_cons_of_mem _ old)
            · exact Or.inr (Or.inl new)
            · exact Or.inr (Or.inr
                ⟨old, List.mem_cons_of_mem _ inside, same, rfl⟩)

theorem mem_waiting_enqueue
    {rank : Nat} {block : BlockId} {state other : State}
    {batches : List (Batch State)} :
    other ∈ (enqueue rank block state batches).flatMap Batch.states ↔
      other = state ∨ other ∈ batches.flatMap Batch.states := by
  induction batches with
  | nil => simp [enqueue]
  | cons first rest induction =>
      rw [enqueue]
      split
      · simp only [List.flatMap_cons, List.mem_append, List.mem_singleton]
        grind
      · split
        · simp
        · rw [List.flatMap_cons, List.mem_append, induction,
            List.flatMap_cons, List.mem_append]
          grind

theorem mem_waiting_push
    {worklist : Worklist State} {rank : Nat} {block : BlockId}
    {state other : State} :
    other ∈ (worklist.push rank block state).waiting ↔
      other = state ∨ other ∈ worklist.waiting :=
  mem_waiting_enqueue

/-- Queueing adds the one state to those that wait. -/
theorem waiting_enqueue_perm
    (rank : Nat) (block : BlockId) (state : State)
    (batches : List (Batch State)) :
    ((enqueue rank block state batches).flatMap Batch.states).Perm
      (state :: batches.flatMap Batch.states) := by
  induction batches with
  | nil => exact .refl _
  | cons first rest induction =>
      rw [enqueue]
      split
      · simp only [List.flatMap_cons, List.append_assoc,
          List.singleton_append]
        exact List.perm_middle
      · split
        · exact .refl _
        · exact (induction.append_left first.states).trans List.perm_middle

/-- The batches are in strict order of rank. -/
def InOrder (batches : List (Batch State)) : Prop :=
  batches.Pairwise (fun first second => first.rank < second.rank)

/-- The first batch has the lowest rank, and the others stay in order. -/
theorem InOrder.of_pop
    {worklist rest : Worklist State} {batch : Batch State}
    (ordered : InOrder worklist.batches)
    (popped : worklist.pop? = some (batch, rest)) :
    (∀ other ∈ rest.batches, batch.rank < other.rank) ∧
      InOrder rest.batches := by
  rw [pop?_eq_some popped] at ordered
  exact List.pairwise_cons.mp ordered

theorem InOrder.enqueue
    {batches : List (Batch State)} (ordered : InOrder batches)
    (rank : Nat) (block : BlockId) (state : State) :
    InOrder (enqueue rank block state batches) := by
  induction batches with
  | nil => exact List.pairwise_singleton _ _
  | cons first rest induction =>
      rw [Worklist.enqueue]
      rw [InOrder, List.pairwise_cons] at ordered
      split
      · exact List.pairwise_cons.mpr ordered
      · next differs =>
          split
          · next below =>
              refine List.pairwise_cons.mpr
                ⟨?_, List.pairwise_cons.mpr ordered⟩
              rw [List.forall_mem_cons]
              exact ⟨below, fun later member =>
                Nat.lt_trans below (ordered.1 later member)⟩
          · next notBelow =>
              refine List.pairwise_cons.mpr ⟨?_, induction ordered.2⟩
              intro later member
              rcases mem_enqueue member with
                old | rfl | ⟨old, inside, _, rfl⟩
              · exact ordered.1 later old
              · change first.rank < rank
                omega
              · exact ordered.1 old inside

theorem length_enqueue_le
    (rank : Nat) (block : BlockId) (state : State)
    (batches : List (Batch State)) :
    (enqueue rank block state batches).length ≤ batches.length + 1 := by
  induction batches with
  | nil => simp [enqueue]
  | cons first rest induction =>
      rw [enqueue]
      split
      · simp
      · split
        · simp
        · simpa using induction

end Worklist

/-! ## Ranks -/

theorem mem_of_rankOf?
    {ranked : List BlockId} {block : BlockId} {rank : Nat}
    (found : rankOf? ranked block = some rank) :
    block ∈ ranked := by
  unfold rankOf? at found
  rcases List.findIdx?_eq_some_iff_getElem.mp found with ⟨inside, same, _⟩
  rw [beq_iff_eq] at same
  exact same ▸ List.getElem_mem inside

theorem exists_rankOf?
    {ranked : List BlockId} {block : BlockId} (member : block ∈ ranked) :
    ∃ rank, rankOf? ranked block = some rank := by
  rw [← Option.isSome_iff_exists, rankOf?, List.findIdx?_isSome]
  exact List.any_eq_true.mpr ⟨block, member, by simp⟩

/-- No two blocks have the same rank. -/
theorem rankOf?_injective
    {ranked : List BlockId} {first second : BlockId} {rank : Nat}
    (firstFound : rankOf? ranked first = some rank)
    (secondFound : rankOf? ranked second = some rank) :
    first = second := by
  unfold rankOf? at firstFound secondFound
  rcases List.findIdx?_eq_some_iff_getElem.mp firstFound with
    ⟨_, firstSame, _⟩
  rcases List.findIdx?_eq_some_iff_getElem.mp secondFound with
    ⟨_, secondSame, _⟩
  rw [beq_iff_eq] at firstSame secondSame
  exact firstSame.symm.trans secondSame

end FlowWitness.Exploration
