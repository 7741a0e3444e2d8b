import FlowWitness.Exploration.PathState
import FlowWitness.Proofs.Exploration.Agreement
import FlowWitness.Proofs.Exploration.StackSharing

/-!
# Joins

What a merged state says.  Its conditions are those of the states it was made
from and one more, the join: whoever is at the block on this visit came along
one of the edges, and the merged versions have the values of the versions at
the end of that edge.

Read forwards, a valuation under which one of the states arrives, and where
the merged versions repeat the values of its own, satisfies the join; so does
every valuation that does not make the visit.  Read backwards, a valuation
that satisfies the join and makes the visit is one under which some state
arrives, with the values that the merged versions have.
-/

namespace FlowWitness.Exploration

open FlowWitness.Graph
open FlowWitness.Program
open FlowWitness.Smt

/-- The edge that a state came along is taken. -/
def PathState.Arrives (state : PathState) (valuation : Valuation) : Prop :=
  ∀ edge, state.pending = some edge →
    valuation.Satisfies edge.sourceMarker ∧ valuation.Satisfies edge.condition

/--
A state of a search: conditions, regular versions, and an edge with those
versions at its end.
-/
structure PathState.Proper (state : PathState) : Prop where
  conditions : ∀ term ∈ state.conditions.terms, term.IsCondition
  regular : state.versions.Regular
  source : ∀ edge, state.pending = some edge → edge.sourceMarker.IsCondition
  taken : ∀ edge, state.pending = some edge → edge.condition.IsCondition
  versions : ∀ edge, state.pending = some edge →
    edge.versions = state.versions

/-- The two version maps have the same values. -/
def SameValues (valuation : Valuation) (first second : VersionMap) : Prop :=
  ∀ key : SymbolKey,
    valuation.read (key.versionName (first.get key)) key.sort =
      valuation.read (key.versionName (second.get key)) key.sort

theorem SameValues.read_environmentOf
    {valuation : Valuation} {first second : VersionMap}
    (same : SameValues valuation first second) (target : Variable) :
    (environmentOf valuation first).read target =
      (environmentOf valuation second).read target :=
  read_environmentOf_congr (fun key _ => same key)

/-! ## Edges -/

theorem read_eq_of_satisfies_equation
    {valuation : Valuation} {key : SymbolKey} {first second : Nat}
    (satisfied : valuation.Satisfies
      (.equation (key.versioned first) (key.versioned second))) :
    valuation.read (key.versionName first) key.sort =
      valuation.read (key.versionName second) key.sort := by
  have firstValue := key.eval_versioned first valuation
  have secondValue := key.eval_versioned second valuation
  cases sorted : key.sort with
  | bool =>
      simp only [sorted, Valuation.read] at firstValue secondValue ⊢
      exact congrArg some
        ((Valuation.satisfies_equation firstValue secondValue rfl).mp satisfied)
  | bitVec width =>
      simp only [sorted, Valuation.read] at firstValue secondValue ⊢
      exact congrArg some
        ((Valuation.satisfies_equation firstValue secondValue rfl).mp satisfied)
  | _ => rfl

/-- An edge that was taken has the values of the merged versions. -/
theorem sameValues_of_edgeCondition
    {valuation : Valuation} {merged : VersionMap} {edge : PendingEdge}
    (behind : ∀ key, edge.versions.get key ≤ merged.get key)
    (satisfied : valuation.Satisfies (edgeCondition merged edge)) :
    SameValues valuation merged edge.versions := by
  intro key
  by_cases fresh : edge.versions.get key = merged.get key
  · rw [fresh]
  · have positive : 0 < merged.get key := by
      have := behind key
      omega
    apply read_eq_of_satisfies_equation
    apply Valuation.satisfies_conjoin.mp satisfied
    apply List.mem_cons_of_mem
    apply List.mem_cons_of_mem
    exact List.mem_filterMap.mpr ⟨_, VersionMap.mem_entries_of_get_pos positive,
      by simp [joinEquation?, fresh]⟩

theorem satisfies_joinEquation
    {valuation : Valuation} {merged own : VersionMap}
    (regular : merged.Regular) (same : SameValues valuation merged own)
    {entry : SymbolKey × Nat} (member : entry ∈ merged.entries)
    {equation : Term} (joins : joinEquation? own entry = some equation) :
    valuation.Satisfies equation := by
  rcases entry with ⟨key, version⟩
  have current : merged.get key = version := regular.ordered.get_of_mem member
  have ground := regular.ground _ member
  simp only [joinEquation?] at joins
  split at joins
  · simp at joins
  · simp only [Option.some.injEq] at joins
    subst equation
    have reads := same key
    rw [current] at reads
    have wellSorted : (key.versioned version).WellSorted := .constant _ ground
    rcases wellSorted.eval_eq_some valuation with ⟨value, evaluated, _⟩
    have other : (key.versioned (own.get key)).eval valuation = some value := by
      rw [SymbolKey.eval_versioned, ← reads, ← SymbolKey.eval_versioned,
        evaluated]
    exact (Valuation.satisfies_equation evaluated other rfl).mpr rfl

theorem satisfies_edgeCondition
    {valuation : Valuation} {merged : VersionMap} {edge : PendingEdge}
    (regular : merged.Regular)
    (same : SameValues valuation merged edge.versions)
    (source : valuation.Satisfies edge.sourceMarker)
    (taken : valuation.Satisfies edge.condition) :
    valuation.Satisfies (edgeCondition merged edge) := by
  apply Valuation.satisfies_conjoin.mpr
  intro term member
  rcases List.mem_cons.mp member with rfl | rest
  · exact source
  · rcases List.mem_cons.mp rest with rfl | equations
    · exact taken
    · rcases List.mem_filterMap.mp equations with ⟨entry, inEntries, joins⟩
      exact satisfies_joinEquation regular same inEntries joins

theorem isCondition_edgeCondition
    {merged : VersionMap} {edge : PendingEdge} (regular : merged.Regular)
    (source : edge.sourceMarker.IsCondition)
    (taken : edge.condition.IsCondition) :
    (edgeCondition merged edge).IsCondition := by
  apply Term.isCondition_conjoin
  intro term member
  rcases List.mem_cons.mp member with rfl | rest
  · exact source
  · rcases List.mem_cons.mp rest with rfl | equations
    · exact taken
    · rcases List.mem_filterMap.mp equations with
        ⟨⟨key, version⟩, inEntries, joins⟩
      have ground := regular.ground _ inEntries
      simp only [joinEquation?] at joins
      split at joins
      · simp at joins
      · simp only [Option.some.injEq] at joins
        subst term
        exact Term.isCondition_equation (.constant _ ground)
          (.constant _ ground) rfl

/-! ## Merged states -/

section Merging

variable {states : List PathState} {marker : Term}

/-- The versions of a merged state. -/
def mergedVersions (states : List PathState) : VersionMap :=
  VersionMap.mergeAll (states.map PathState.versions)

theorem get_le_mergedVersions
    {state : PathState} (member : state ∈ states) (key : SymbolKey) :
    state.versions.get key ≤ (mergedVersions states).get key :=
  VersionMap.le_get_mergeAll (List.mem_map_of_mem member) key

theorem regular_mergedVersions
    (proper : ∀ state ∈ states, state.Proper) :
    (mergedVersions states).Regular := by
  apply VersionMap.regular_mergeAll
  intro map member
  rcases List.mem_map.mp member with ⟨state, inside, rfl⟩
  exact (proper state inside).regular

theorem joinCondition?_eq_some
    {versions : VersionMap} {join : Term}
    (joins : joinCondition? marker versions states = some join) :
    join = .implication marker (.disjoin
      ((states.filterMap PathState.pending).map (edgeCondition versions))) := by
  unfold joinCondition? at joins
  split at joins
  · simp at joins
  · simp only [Option.some.injEq] at joins
    exact joins.symm

theorem isCondition_edges
    (proper : ∀ state ∈ states, state.Proper)
    {versions : VersionMap} (regular : versions.Regular) :
    ∀ term ∈ (states.filterMap PathState.pending).map (edgeCondition versions),
      term.IsCondition := by
  intro term member
  rcases List.mem_map.mp member with ⟨edge, inEdges, rfl⟩
  rcases List.mem_filterMap.mp inEdges with ⟨state, inside, pending⟩
  exact isCondition_edgeCondition regular
    ((proper state inside).source edge pending)
    ((proper state inside).taken edge pending)

theorem isCondition_join
    (proper : ∀ state ∈ states, state.Proper)
    (condition : marker.IsCondition)
    {join : Term}
    (joins : joinCondition? marker (mergedVersions states) states = some join) :
    join.IsCondition := by
  rw [joinCondition?_eq_some joins]
  exact condition.implication (Term.isCondition_disjoin
    (isCondition_edges proper (regular_mergedVersions proper)))

/-- A visit that is not made needs no edge. -/
theorem satisfies_join_of_not_marker
    (proper : ∀ state ∈ states, state.Proper)
    (condition : marker.IsCondition)
    {join : Term}
    (joins : joinCondition? marker (mergedVersions states) states = some join)
    {valuation : Valuation} (absent : ¬ valuation.Satisfies marker) :
    valuation.Satisfies join := by
  rw [joinCondition?_eq_some joins]
  rw [Valuation.satisfies_implication condition (Term.isCondition_disjoin
    (isCondition_edges proper (regular_mergedVersions proper)))]
  exact fun present => (absent present).elim

/-- A state that arrives with the merged values satisfies the join. -/
theorem satisfies_join_of_arrives
    (proper : ∀ state ∈ states, state.Proper)
    (condition : marker.IsCondition)
    {join : Term}
    (joins : joinCondition? marker (mergedVersions states) states = some join)
    {state : PathState} (member : state ∈ states)
    (edgeful : state.pending.isSome = true)
    {valuation : Valuation} (arrives : state.Arrives valuation)
    (same : SameValues valuation (mergedVersions states) state.versions) :
    valuation.Satisfies join := by
  rcases Option.isSome_iff_exists.mp edgeful with ⟨edge, pending⟩
  rcases arrives edge pending with ⟨source, taken⟩
  have regular := regular_mergedVersions proper
  have conditions := isCondition_edges proper regular
  rw [← (proper state member).versions edge pending] at same
  rw [joinCondition?_eq_some joins,
    Valuation.satisfies_implication condition
      (Term.isCondition_disjoin conditions)]
  intro _
  exact Valuation.satisfies_disjoin_of_mem conditions
    (List.mem_map_of_mem (List.mem_filterMap.mpr ⟨state, member, pending⟩))
    (satisfies_edgeCondition regular same source taken)

/-- A visit that is made was made along some edge. -/
theorem exists_arrives_of_join
    (proper : ∀ state ∈ states, state.Proper)
    (condition : marker.IsCondition)
    {join : Term}
    (joins : joinCondition? marker (mergedVersions states) states = some join)
    {valuation : Valuation} (satisfied : valuation.Satisfies join)
    (present : valuation.Satisfies marker) :
    ∃ state ∈ states, state.Arrives valuation ∧
      SameValues valuation (mergedVersions states) state.versions := by
  have conditions := isCondition_edges proper (regular_mergedVersions proper)
  rw [joinCondition?_eq_some joins,
    Valuation.satisfies_implication condition
      (Term.isCondition_disjoin conditions)] at satisfied
  rcases Valuation.exists_satisfied_of_disjoin (satisfied present) with
    ⟨term, member, holds⟩
  rcases List.mem_map.mp member with ⟨edge, inEdges, rfl⟩
  rcases List.mem_filterMap.mp inEdges with ⟨state, inside, pending⟩
  have versions := (proper state inside).versions edge pending
  refine ⟨state, inside, ?_, ?_⟩
  · intro other otherPending
    rw [pending, Option.some.injEq] at otherPending
    subst other
    have all := Valuation.satisfies_conjoin.mp holds
    exact ⟨all _ (by simp), all _ (by simp)⟩
  · rw [← versions]
    apply sameValues_of_edgeCondition _ holds
    intro key
    rw [versions]
    exact get_le_mergedVersions inside key

/-- If one of the states has an edge, there is a join. -/
theorem exists_join
    (marker : Term) {state : PathState} (member : state ∈ states)
    (edgeful : state.pending.isSome = true) (versions : VersionMap) :
    ∃ join, joinCondition? marker versions states = some join := by
  rcases Option.isSome_iff_exists.mp edgeful with ⟨edge, pending⟩
  have inEdges : edge ∈ states.filterMap PathState.pending :=
    List.mem_filterMap.mpr ⟨state, member, pending⟩
  unfold joinCondition?
  split
  · next none => simp [none] at inEdges
  · exact ⟨_, rfl⟩

/-! ## Parts of a merged state -/

variable (supply : Nat) (block : BlockId)

@[simp]
theorem mergeStates_block :
    (mergeStates supply block marker states).1.block = block := by
  unfold mergeStates
  simp only
  split <;> rfl

@[simp]
theorem mergeStates_versions :
    (mergeStates supply block marker states).1.versions =
      mergedVersions states := by
  unfold mergeStates
  simp only
  split <;> rfl

/--
A merged stack shares with the stacks it was made from, and has their
conditions and the join.
-/
theorem mergeStates_conditions
    {family : List ConditionStack} {supply : Nat}
    (sharing : Sharing family supply)
    (members : ∀ state ∈ states, state.conditions ∈ family) :
    Sharing ((mergeStates supply block marker states).1.conditions :: family)
        (mergeStates supply block marker states).2 ∧
      ∀ term,
        term ∈ (mergeStates supply block marker states).1.conditions.terms ↔
          (∃ state ∈ states, term ∈ state.conditions.terms) ∨
            joinCondition? marker (mergedVersions states) states =
              some term := by
  obtain ⟨shared, terms⟩ := ConditionStack.merge_spec sharing
    (fun _ member => by
      rcases List.mem_map.mp member with ⟨state, inside, rfl⟩
      exact members state inside :
      ∀ source ∈ states.map PathState.conditions, source ∈ family)
  unfold mergeStates
  simp only
  split
  · next none =>
      refine ⟨shared, ?_⟩
      intro term
      rw [terms]
      simp [mergedVersions, none]
  · next join joins =>
      refine ⟨shared.push_top join, ?_⟩
      intro term
      rw [ConditionStack.mem_terms_push, terms, or_comm, eq_comm]
      simp [mergedVersions, joins]

end Merging

end FlowWitness.Exploration
