import FlowWitness.Proofs.Exploration.DeclaredVariables
import FlowWitness.Proofs.Exploration.SearchLog

/-!
# Single assignment along a chain of visits

The two sides of a branch mint the same versions, each on its own, and a join
goes on with the latest of them.  So a version can be defined many times in one
search.  What is read has one definition only along a chain of visits: the merge
of the seed, a merge whose batch holds a state that the first one sent, and so
on.

A chain defines a version where an assignment mints it, and where a join lets a
version of the edge that the chain came by catch up with the merged one.  The
definitions so far account for the versions at hand: the current version of
every symbol is zero or defined, and no later one is.  A join and an assignment
both define only what is later, so neither defines anything twice.
-/

namespace FlowWitness.Smt.Term

/-- The left side of an equation. -/
def leftSide? : Term → Option Term
  | binary symbol first second =>
    if binary symbol first second = equation first second then some first
    else none
  | _ => none

/-- The right side of an equation; any other term as a whole. -/
def value : Term → Term
  | binary symbol first second =>
    if binary symbol first second = equation first second then second
    else binary symbol first second
  | other => other

@[simp]
theorem leftSide?_equation (first second : Term) :
    (equation first second).leftSide? = some first :=
  if_pos rfl

@[simp]
theorem value_equation (first second : Term) :
    (equation first second).value = second :=
  if_pos rfl

end FlowWitness.Smt.Term

namespace FlowWitness.Exploration

open FlowWitness.Graph
open FlowWitness.Program
open FlowWitness.Smt
open FlowWitness.Solver

theorem SymbolKey.versioned_injective
    {first second : SymbolKey} {firstVersion secondVersion : Nat}
    (same : first.versioned firstVersion = second.versioned secondVersion) :
    first = second ∧ firstVersion = secondVersion := by
  rcases first with ⟨firstName, firstSort⟩
  rcases second with ⟨secondName, secondSort⟩
  have symbols := FunctionSymbol.mk.inj (Term.nullary.inj same)
  rcases versionName_injective symbols.1 with ⟨names, versions⟩
  exact ⟨by rw [SymbolKey.mk.injEq]; exact ⟨names, symbols.2.2.1⟩, versions⟩

/-! ## Definitions -/

/-- The equations of a join for one edge. -/
def joinEquations (own merged : VersionMap) : List Term :=
  merged.entries.filterMap (joinEquation? own)

/-- What a join defines: the left sides of its equations for one edge. -/
def joinDefinitions (own merged : VersionMap) : List Term :=
  (joinEquations own merged).filterMap Term.leftSide?

/--
The definitions so far account for the versions: nothing is defined twice, the
current version of every symbol is zero or defined, and no later one is.
-/
structure Accounts (definitions : List Term) (versions : VersionMap) :
    Prop where
  nodup : definitions.Nodup
  defined : ∀ key : SymbolKey, 0 < versions.get key →
    key.versioned (versions.get key) ∈ definitions
  current : ∀ (key : SymbolKey) (version : Nat),
    key.versioned version ∈ definitions → version ≤ versions.get key

theorem leftSide?_joinEquation?
    {own : VersionMap} {entry : SymbolKey × Nat} {term : Term} :
    (joinEquation? own entry).bind Term.leftSide? = some term ↔
      own.get entry.1 ≠ entry.2 ∧ entry.1.versioned entry.2 = term := by
  simp only [joinEquation?]
  split
  · next level => simp [level]
  · next behind => simp [behind]

/-- A join defines the merged versions that the edge has not come to. -/
theorem mem_joinDefinitions {own merged : VersionMap} {term : Term} :
    term ∈ joinDefinitions own merged ↔ ∃ entry ∈ merged.entries,
      own.get entry.1 ≠ entry.2 ∧ entry.1.versioned entry.2 = term := by
  simp only [joinDefinitions, joinEquations, List.filterMap_filterMap,
    List.mem_filterMap, leftSide?_joinEquation?]

/-- Each equation is that of a symbol for which the edge is behind. -/
theorem mem_joinEquations
    {own merged : VersionMap} (ordered : merged.Ordered)
    (behind : ∀ key, own.get key ≤ merged.get key) {term : Term} :
    term ∈ joinEquations own merged ↔ ∃ key : SymbolKey,
      own.get key < merged.get key ∧
      term = .equation (key.versioned (merged.get key))
        (key.versioned (own.get key)) := by
  constructor
  · intro member
    rcases List.mem_filterMap.mp member with ⟨⟨key, version⟩, inside, joins⟩
    have current : merged.get key = version := ordered.get_of_mem inside
    simp only [joinEquation?] at joins
    split at joins
    · simp at joins
    · next different =>
        cases joins
        have := behind key
        exact ⟨key, by omega, by rw [current]⟩
  · rintro ⟨key, less, rfl⟩
    exact List.mem_filterMap.mpr ⟨_, VersionMap.mem_entries_of_get_pos
      (Nat.zero_lt_of_lt less), by simp [joinEquation?, Nat.ne_of_lt less]⟩

theorem nodup_joinDefinitions
    {merged : VersionMap} (ordered : merged.Ordered) (own : VersionMap) :
    (joinDefinitions own merged).Nodup := by
  rw [joinDefinitions, joinEquations, List.filterMap_filterMap]
  refine ordered.nodup_entries.filterMap ?_
  rintro ⟨first, firstVersion⟩ ⟨second, secondVersion⟩ term ofFirst ofSecond
  have left := (leftSide?_joinEquation?.mp ofFirst).2
  have right := (leftSide?_joinEquation?.mp ofSecond).2
  rcases SymbolKey.versioned_injective (left.trans right.symm) with
    ⟨keys, versions⟩
  exact Prod.ext keys versions

namespace Accounts

variable {definitions : List Term} {versions : VersionMap}

theorem start (zero : ∀ key, versions.get key = 0) : Accounts [] versions where
  nodup := List.nodup_nil
  defined key positive := absurd (zero key) (Nat.ne_of_gt positive)
  current _ _ member := absurd member List.not_mem_nil

/-- A join lets the definitions catch up with the merged versions. -/
theorem join
    {own merged : VersionMap} (accounts : Accounts definitions own)
    (behind : ∀ key, own.get key ≤ merged.get key) (ordered : merged.Ordered) :
    Accounts (joinDefinitions own merged ++ definitions) merged where
  nodup := by
    refine List.nodup_append.mpr
      ⟨nodup_joinDefinitions ordered own, accounts.nodup, ?_⟩
    -- What the join defines is above the edge, and nothing above it is defined.
    rintro term joined _ earlier rfl
    rcases mem_joinDefinitions.mp joined with ⟨⟨key, version⟩, member,
      different, rfl⟩
    have known := accounts.current key version earlier
    have level := behind key
    rw [ordered.get_of_mem member] at level
    exact different (Nat.le_antisymm level known)
  defined key positive := by
    rw [List.mem_append]
    by_cases level : own.get key = merged.get key
    · rw [← level] at positive ⊢
      exact .inr (accounts.defined key positive)
    · exact .inl (mem_joinDefinitions.mpr
        ⟨_, VersionMap.mem_entries_of_get_pos positive, level, rfl⟩)
  current key version member := by
    rcases List.mem_append.mp member with joined | earlier
    · rcases mem_joinDefinitions.mp joined with ⟨entry, inside, _, same⟩
      rcases SymbolKey.versioned_injective same with ⟨rfl, rfl⟩
      exact Nat.le_of_eq (ordered.get_of_mem inside).symm
    · exact (accounts.current key version earlier).trans (behind key)

/-- An assignment defines the version that it mints. -/
theorem assign (accounts : Accounts definitions versions) (key : SymbolKey) :
    Accounts (key.versioned (versions.get key + 1) :: definitions)
      (versions.insert key (versions.get key + 1)) where
  nodup := by
    refine List.nodup_cons.mpr ⟨fun known => ?_, accounts.nodup⟩
    have := accounts.current key _ known
    omega
  defined other positive := by
    by_cases same : other = key
    · subst other
      rw [VersionMap.get_insert_self]
      exact List.mem_cons_self
    · rw [VersionMap.get_insert_of_ne versions same] at positive ⊢
      exact List.mem_cons_of_mem _ (accounts.defined other positive)
  current other version member := by
    rcases List.mem_cons.mp member with minted | earlier
    · rcases SymbolKey.versioned_injective minted with ⟨rfl, rfl⟩
      rw [VersionMap.get_insert_self]
    · exact (accounts.current other version earlier).trans
        (VersionMap.get_le_get_insert versions (Nat.le_succ _) other)

end Accounts

/-! ## Encoded operations -/

namespace EncodedOperation

/-- What the effect defines: the version that an assignment mints. -/
def definitions (encoded : EncodedOperation) : List Term :=
  encoded.effect.leftSide?.toList

/-- The symbols that the condition and the value of the effect mention. -/
def reads (encoded : EncodedOperation) : List Term :=
  ((encoded.condition.toList ++ [encoded.effect.value]).flatMap
    Term.declarations).map Term.nullary

/--
The conditions of the edges behind an encoded operation: its effect, and on
both sides of a branch the guard or its negation as well.
-/
def Permits (encoded : EncodedOperation) (condition : Term) : Prop :=
  (encoded.condition = none ∧ condition = encoded.effect) ∨
    ∃ guard, encoded.condition = some guard ∧
      (condition = .conjoin [guard, encoded.effect] ∨
        condition = .conjoin [.negation guard, encoded.effect])

end EncodedOperation

/-- What an expression reads are current versions. -/
theorem eq_get_of_declared
    {versions : VersionMap} {expression : Expression} {term : Term}
    (encoded : encodeExpression versions expression = .ok term)
    {key : SymbolKey} {version : Nat}
    (declared : key.versioned version ∈ term.declarations.map Term.nullary) :
    version = versions.get key := by
  rcases List.mem_map.mp declared with ⟨symbol, member, same⟩
  rw [Term.declarations_eq_eraseDups, List.mem_eraseDups] at member
  have read :
      some symbol ∈ expression.mentioned.map (currentSymbol? versions) :=
    declaredSymbols_encodeExpression encoded ▸ List.mem_map_of_mem member
  rcases List.mem_map.mp read with ⟨target, _, found⟩
  rcases currentSymbol?_eq_some found with ⟨other, _, rfl⟩
  have same : key.versioned version = other.versioned (versions.get other) :=
    same.symm
  rcases SymbolKey.versioned_injective same with ⟨rfl, rfl⟩
  rfl

section Operations

variable {block : BlockId} {versions : VersionMap}
  {operation : Option Operation} {encoded : EncodedOperation}

/-- What an operation reads are current versions. -/
theorem eq_get_of_reads
    (compiled : encodeOperation block versions operation = .ok encoded)
    {key : SymbolKey} {version : Nat}
    (read : key.versioned version ∈ encoded.reads) :
    version = versions.get key := by
  cases operation with
  | none =>
      cases compiled
      simp [EncodedOperation.reads, EncodedOperation.nothing, Term.value,
        Term.declarations, Term.collectDeclarations] at read
  | some performed =>
      cases performed with
      | jump condition =>
          rcases encodeJump_eq_ok compiled with ⟨term, encodes, _, rfl⟩
          refine eq_get_of_declared encodes ?_
          simpa [EncodedOperation.reads, Term.value, Term.declarations,
            Term.collectDeclarations] using read
      | assign target assigned =>
          rcases encodeAssignment_eq_ok compiled with
            ⟨term, _, encodes, _, _, rfl⟩
          refine eq_get_of_declared encodes ?_
          simpa [EncodedOperation.reads] using read
      | call signature arguments results => cases compiled

/-- An operation keeps the account. -/
theorem Accounts.perform
    {definitions : List Term} (accounts : Accounts definitions versions)
    (compiled : encodeOperation block versions operation = .ok encoded) :
    Accounts (encoded.definitions ++ definitions) encoded.versions := by
  cases operation with
  | none =>
      cases compiled
      exact accounts
  | some performed =>
      cases performed with
      | jump condition =>
          rcases encodeJump_eq_ok compiled with ⟨term, _, _, rfl⟩
          exact accounts
      | assign target assigned =>
          rcases encodeAssignment_eq_ok compiled with
            ⟨term, key, _, _, _, rfl⟩
          simpa [EncodedOperation.definitions] using accounts.assign key
      | call signature arguments results => cases compiled

end Operations

/-- The ways out of a block have the versions and effect of its operation. -/
theorem Leaves.encoded
    {graph : FlowGraph} {block : BlockId} {versions : VersionMap}
    {edges : List Departure} (leaves : Leaves graph block versions edges)
    {edge : Departure} (member : edge ∈ edges) :
    ∃ encoded, encodeOperation block versions (graph.operation? block) =
        .ok encoded ∧ edge.versions = encoded.versions ∧
      encoded.Permits edge.condition := by
  cases leaves with
  | stop shape => simp at member
  | pass idle shape =>
      cases List.mem_singleton.mp member
      rw [idle]
      exact ⟨.nothing versions, rfl, rfl, .inl ⟨rfl, rfl⟩⟩
  | @assign next target value key term assigns shape encodes found sorted =>
      cases List.mem_singleton.mp member
      refine ⟨⟨none, .equation (key.versioned (versions.get key + 1)) term,
        versions.insert key (versions.get key + 1),
        some (key, versions.get key + 1)⟩, ?_, rfl, .inl ⟨rfl, rfl⟩⟩
      simp [assigns, encodeOperation, encodeAssignment, encodes, found, sorted,
        VersionMap.bump]
  | @branch onTrue onFalse condition term jumps shape encodes boolean =>
      refine ⟨⟨some term, .bool true, versions, none⟩, ?_, ?_⟩
      · simp [jumps, encodeOperation, encodeJump, encodes, boolean]
      · simp only [List.mem_cons, List.not_mem_nil, or_false] at member
        rcases member with rfl | rfl
        · exact ⟨rfl, .inr ⟨term, rfl, .inl rfl⟩⟩
        · exact ⟨rfl, .inr ⟨term, rfl, .inr rfl⟩⟩

/-! ## Chains of visits -/

/-- A merge on a chain, and the state by which the chain arrives there. -/
structure Visit where
  turn : Turn
  arrival : PathState

namespace Visit

/-- The versions after the merge. -/
def merged (visit : Visit) : VersionMap := visit.turn.state.versions

/-- The versions that the visit goes through, the latest first. -/
def versions (visit : Visit) : List VersionMap :=
  [visit.merged, visit.arrival.versions]

/-- The operation of the block, over the versions after the merge. -/
def compiled (graph : FlowGraph) (visit : Visit) :
    Except ContractViolation EncodedOperation :=
  encodeOperation visit.turn.block visit.merged
    (graph.operation? visit.turn.block)

/-- What the operation defines, if it can be encoded. -/
def assigned (graph : FlowGraph) (visit : Visit) : List Term :=
  match visit.compiled graph with
  | .ok encoded => encoded.definitions
  | .error _ => []

/-- The equations of the join for the edge that the chain comes by. -/
def equations (visit : Visit) : List Term :=
  match visit.arrival.pending with
  | none => []
  | some edge => joinEquations edge.versions visit.merged

/-- What the join defines for the edge that the chain comes by. -/
def joined (visit : Visit) : List Term :=
  visit.equations.filterMap Term.leftSide?

/-- What the visit defines, the latest first. -/
def definitions (graph : FlowGraph) (visit : Visit) : List Term :=
  visit.assigned graph ++ visit.joined

/--
What a visit defines stands in the conditions of the search.  The merged state
has the join among its conditions; the disjunct of the join for the edge that
the chain comes by has the equations of the visit, one for each symbol of which
the edge has an earlier version.  And the edges that leave the visit are taken
under its marker and the effect of its operation.
-/
structure Stated (graph : FlowGraph) (visit : Visit) : Prop where
  joins : ∀ edge, visit.arrival.pending = some edge → ∃ before after,
    .implication visit.turn.marker (.disjoin (before ++
      .conjoin (edge.sourceMarker :: edge.condition :: visit.equations) ::
        after)) ∈ visit.turn.state.conditions.terms
  equates : ∀ edge, visit.arrival.pending = some edge →
    ∀ term, term ∈ visit.equations ↔ ∃ key : SymbolKey,
      edge.versions.get key < visit.merged.get key ∧
      term = .equation (key.versioned (visit.merged.get key))
        (key.versioned (edge.versions.get key))
  effects : ∀ state ∈ visit.turn.sent, ∃ edge encoded,
    state.pending = some edge ∧ visit.compiled graph = .ok encoded ∧
      edge.sourceMarker = visit.turn.marker ∧
      edge.versions = encoded.versions ∧ encoded.Permits edge.condition

end Visit

/--
The chains of visits of a search, the latest visit first.  A chain starts with
the merge of the seed, and goes on with a merge of a state that the merge
before it sent.
-/
inductive Chain (problem : Problem) (log : List Turn) : List Visit → Prop where
  | seed {turn : Turn} {versions : VersionMap}
      (logged : turn ∈ log) (admitted : problem.admits turn = true)
      (arrives : .seed problem.graph.entry versions ∈ turn.batch.states) :
      Chain problem log [⟨turn, .seed problem.graph.entry versions⟩]
  | next {previous : Visit} {earlier : List Visit} {turn : Turn}
      {arrival : PathState}
      (chain : Chain problem log (previous :: earlier))
      (logged : turn ∈ log) (admitted : problem.admits turn = true)
      (sent : arrival ∈ previous.turn.sent)
      (arrives : arrival ∈ turn.batch.states) :
      Chain problem log (⟨turn, arrival⟩ :: previous :: earlier)

/-- What the log of a search says of each of its turns. -/
structure Turn.Recorded (problem : Problem) (turn : Turn) : Prop where
  proper : ∀ state ∈ turn.batch.states, state.Proper
  entered :
    (∃ versions, turn.batch.states = [.seed problem.graph.entry versions] ∧
      ∀ key, versions.get key = 0) ∨
    ∀ state ∈ turn.batch.states, state.pending.isSome = true
  leaves : ∀ edges, turn.ways = some edges →
    Leaves problem.graph turn.block (mergedVersions turn.batch.states) edges
  pushed : ∀ join,
    joinCondition? turn.marker (mergedVersions turn.batch.states)
      turn.batch.states = some join → join ∈ turn.state.conditions.terms

namespace Visit

variable {problem : Problem} {visit : Visit} {earlier : List Term}

theorem merged_eq (visit : Visit) :
    visit.merged = mergedVersions visit.turn.batch.states :=
  mergeStates_versions _ _

theorem arrival_le_merged
    (visit : Visit) (arrives : visit.arrival ∈ visit.turn.batch.states)
    (key : SymbolKey) :
    visit.arrival.versions.get key ≤ visit.merged.get key := by
  rw [merged_eq]
  exact get_le_mergedVersions arrives key

/-- The seed is merged alone, and nothing has been assigned to by then. -/
theorem zero_of_seed
    (recorded : visit.turn.Recorded problem)
    (arrives : visit.arrival ∈ visit.turn.batch.states)
    (seed : visit.arrival.pending = none) (key : SymbolKey) :
    visit.merged.get key = 0 := by
  rcases recorded.entered with ⟨versions, alone, zero⟩ | edges
  · rw [merged_eq, alone]
    exact zero key
  · have edge := edges _ arrives
    simp [seed] at edge

theorem ordered_merged (recorded : visit.turn.Recorded problem) :
    visit.merged.Ordered := by
  rw [merged_eq]
  exact (regular_mergedVersions recorded.proper).ordered

/-- A join keeps the account. -/
theorem accounts_join
    (recorded : visit.turn.Recorded problem)
    (arrives : visit.arrival ∈ visit.turn.batch.states)
    {edge : PendingEdge} (pending : visit.arrival.pending = some edge)
    (accounts : Accounts earlier visit.arrival.versions) :
    Accounts (visit.joined ++ earlier) visit.merged := by
  have own := (recorded.proper _ arrives).versions edge pending
  rw [joined, equations, pending]
  simp only
  rw [own]
  exact accounts.join (visit.arrival_le_merged arrives)
    (ordered_merged recorded)

/-- What a visit sends has the versions and the effect of its operation. -/
theorem compiled_of_sent
    (recorded : visit.turn.Recorded problem)
    {state : PathState} (sent : state ∈ visit.turn.sent) :
    (∀ key, visit.merged.get key ≤ state.versions.get key) ∧
      ∃ edge encoded, state.pending = some edge ∧
        visit.compiled problem.graph = .ok encoded ∧
        edge.sourceMarker = visit.turn.marker ∧
        edge.versions = state.versions ∧
        state.versions = encoded.versions ∧
        encoded.Permits edge.condition := by
  rcases List.mem_map.mp sent with ⟨edge, member, rfl⟩
  cases ways : visit.turn.ways with
  | none => simp [ways] at member
  | some edges =>
      have leaves := recorded.leaves edges ways
      rw [← merged_eq] at leaves
      rw [ways, Option.getD_some] at member
      rcases leaves.encoded member with ⟨encoded, compiled, versions, permits⟩
      exact ⟨leaves.get_le member, _, encoded, rfl, compiled, rfl, rfl,
        versions, permits⟩

/-- The join of the visit has a disjunct for the edge of the arrival. -/
theorem join_of_arrival
    (recorded : visit.turn.Recorded problem)
    (arrives : visit.arrival ∈ visit.turn.batch.states)
    {edge : PendingEdge} (pending : visit.arrival.pending = some edge) :
    ∃ before after, .implication visit.turn.marker (.disjoin (before ++
      .conjoin (edge.sourceMarker :: edge.condition :: visit.equations) ::
        after)) ∈ visit.turn.state.conditions.terms := by
  rcases exists_join visit.turn.marker arrives (by rw [pending]; rfl)
    (mergedVersions visit.turn.batch.states) with ⟨join, joins⟩
  have listed : edge ∈ visit.turn.batch.states.filterMap PathState.pending :=
    List.mem_filterMap.mpr ⟨_, arrives, pending⟩
  rcases List.append_of_mem listed with ⟨before, after, edges⟩
  have disjunct : edgeCondition (mergedVersions visit.turn.batch.states) edge =
      .conjoin (edge.sourceMarker :: edge.condition :: visit.equations) := by
    rw [← merged_eq, edgeCondition, equations, pending]
    rfl
  have pushed := recorded.pushed join joins
  rw [joinCondition?_eq_some joins, edges, List.map_append, List.map_cons,
    disjunct] at pushed
  exact ⟨_, _, pushed⟩

/-- What a visit defines stands in the conditions. -/
theorem stated
    (recorded : visit.turn.Recorded problem)
    (arrives : visit.arrival ∈ visit.turn.batch.states) :
    visit.Stated problem.graph where
  joins _ pending := join_of_arrival recorded arrives pending
  equates edge pending term := by
    rw [equations, pending]
    refine mem_joinEquations (ordered_merged recorded) ?_
    rw [(recorded.proper _ arrives).versions edge pending]
    exact visit.arrival_le_merged arrives
  effects state sent := by
    rcases (compiled_of_sent recorded sent).2 with
      ⟨edge, encoded, pending, compiled, marker, own, versions, permits⟩
    exact ⟨edge, encoded, pending, compiled, marker, own.trans versions,
      permits⟩

/-- What a visit defines is new. -/
theorem nodup_definitions
    {graph : FlowGraph}
    (accounts : Accounts (visit.joined ++ earlier) visit.merged) :
    (visit.definitions graph ++ earlier).Nodup := by
  rw [definitions, assigned, List.append_assoc]
  split
  · next encoded compiled => exact (accounts.perform compiled).nodup
  · exact accounts.nodup

end Visit

namespace Chain

variable {problem : Problem} {log : List Turn} {visit : Visit}
  {earlier chain : List Visit}

/-- Every visit of a chain is in the log, with the state it arrives by. -/
theorem arrives_of_mem
    (made : Chain problem log chain) (member : visit ∈ chain) :
    visit.turn ∈ log ∧ visit.arrival ∈ visit.turn.batch.states := by
  induction made with
  | seed logged _ arrives =>
      rw [List.mem_singleton.mp member]
      exact ⟨logged, arrives⟩
  | next _ logged _ _ arrives induction =>
      rcases List.mem_cons.mp member with rfl | before
      · exact ⟨logged, arrives⟩
      · exact induction before

/-- What came before a visit of a chain is a chain. -/
theorem of_append
    {later : List Visit}
    (made : Chain problem log (later ++ visit :: earlier)) :
    Chain problem log (visit :: earlier) := by
  induction later with
  | nil => exact made
  | cons last later induction =>
      refine induction ?_
      rw [List.cons_append] at made
      generalize whole : later ++ visit :: earlier = rest at made
      cases made with
      | seed logged _ arrives => simp at whole
      | next shorter _ _ _ _ => exact shorter

variable (recorded : ∀ turn ∈ log, turn.Recorded problem)

include recorded

/-- The definitions along a chain account for the versions at its end. -/
theorem accounts (made : Chain problem log (visit :: earlier)) :
    Accounts (visit.joined ++ earlier.flatMap (Visit.definitions problem.graph))
      visit.merged := by
  generalize same : visit :: earlier = chain at made
  induction made generalizing visit earlier with
  | seed logged _ arrives =>
      cases same
      exact .start (Visit.zero_of_seed (recorded _ logged) arrives rfl)
  | @next previous before turn arrival shorter logged _ sent arrives
      induction =>
      cases same
      have known := induction rfl
      have left := (shorter.arrives_of_mem List.mem_cons_self).1
      rcases Visit.compiled_of_sent (recorded _ left) sent with
        ⟨_, edge, encoded, pending, compiled, _, _, versions, _⟩
      -- The operation of the visit before, then the join of this one.
      refine Visit.accounts_join (recorded _ logged) arrives pending ?_
      have performed := known.perform compiled
      rw [← versions, ← List.append_assoc] at performed
      rw [List.flatMap_cons, Visit.definitions, Visit.assigned, compiled]
      exact performed

/-- Versions only grow along a chain. -/
theorem pairwise_versions (made : Chain problem log chain) (key : SymbolKey) :
    (chain.flatMap Visit.versions).Pairwise (fun later earlier =>
      earlier.get key ≤ later.get key) := by
  induction made with
  | seed logged _ arrives =>
      exact List.pairwise_pair.mpr (Visit.arrival_le_merged ⟨_, _⟩ arrives key)
  | @next previous before turn arrival shorter logged _ sent arrives
      induction =>
      have left := (shorter.arrives_of_mem List.mem_cons_self).1
      have grows := (Visit.compiled_of_sent (recorded _ left) sent).1 key
      have joins := Visit.arrival_le_merged ⟨turn, arrival⟩ arrives key
      have below : ∀ map ∈ (previous :: before).flatMap Visit.versions,
          map.get key ≤ arrival.versions.get key := by
        rw [List.flatMap_cons, Visit.versions, List.cons_append] at induction ⊢
        rw [List.forall_mem_cons]
        exact ⟨grows, fun map member =>
          ((List.pairwise_cons.mp induction).1 map member).trans grows⟩
      rw [List.flatMap_cons, Visit.versions, List.cons_append,
        List.singleton_append, List.pairwise_cons, List.pairwise_cons,
        List.forall_mem_cons]
      exact ⟨⟨joins, fun map member => (below map member).trans joins⟩, below,
        induction⟩

/-- Along a chain nothing is defined twice. -/
theorem nodup_definitions (made : Chain problem log chain) :
    (chain.flatMap (Visit.definitions problem.graph)).Nodup := by
  cases chain with
  | nil => exact List.nodup_nil
  | cons visit earlier =>
      exact Visit.nodup_definitions (made.accounts recorded)

/-- What a visit reads is zero or defined. -/
theorem mem_definitions_of_reads
    (made : Chain problem log (visit :: earlier))
    {encoded : EncodedOperation}
    (compiled : visit.compiled problem.graph = .ok encoded)
    {key : SymbolKey} {version : Nat} (positive : 0 < version)
    (read : key.versioned version ∈ encoded.reads) :
    key.versioned version ∈ visit.joined ++
      earlier.flatMap (Visit.definitions problem.graph) := by
  obtain rfl := eq_get_of_reads compiled read
  exact (made.accounts recorded).defined key positive

end Chain

/-! ## The chains of a search -/

/-- A chain starts with the state, or goes on with it. -/
def Continues (problem : Problem) (log : List Turn) (state : PathState) :
    Prop :=
  (∃ versions, state = .seed problem.graph.entry versions) ∨
    ∃ previous earlier, Chain problem log (previous :: earlier) ∧
      state ∈ previous.turn.sent

section Log

variable {State : Type} {problem : Problem} {solver : Backend State}
  {statistics : Statistics} {start : State} {log : List Turn}
  {run : Run} {after : Dialogue State} {batch : Batch PathState}
  {rest : Worklist PathState} {ways : Option (List Departure)}

theorem Chain.mono
    {chain : List Visit} {longer : List Turn}
    (made : Chain problem log chain) (inside : log ⊆ longer) :
    Chain problem longer chain := by
  induction made with
  | seed logged admitted arrives => exact .seed (inside logged) admitted arrives
  | next _ logged admitted sent arrives induction =>
      exact .next induction (inside logged) admitted sent arrives

theorem Continues.mono
    {state : PathState} {longer : List Turn}
    (continues : Continues problem log state) (inside : log ⊆ longer) :
    Continues problem longer state := by
  rcases continues with seed | ⟨previous, earlier, chain, sent⟩
  · exact .inl seed
  · exact .inr ⟨previous, earlier, chain.mono inside, sent⟩

theorem Continues.chain
    {state : PathState} {turn : Turn}
    (continues : Continues problem log state)
    (logged : turn ∈ log) (admitted : problem.admits turn = true)
    (arrives : state ∈ turn.batch.states) :
    ∃ earlier, Chain problem log (⟨turn, state⟩ :: earlier) := by
  rcases continues with ⟨versions, rfl⟩ | ⟨previous, earlier, chain, sent⟩
  · exact ⟨[], .seed logged admitted arrives⟩
  · exact ⟨previous :: earlier, .next chain logged admitted sent arrives⟩

namespace Problem

theorem recorded_of_pop
    (tidy : run.Tidy problem)
    (popped : run.worklist.pop? = some (batch, rest))
    (leaves : ∀ edges, ways = some edges →
      Leaves problem.graph batch.block (mergedVersions batch.states) edges) :
    Turn.Recorded problem ⟨run.leaving rest, batch, ways⟩ :=
  ⟨tidy.proper_of_batch popped, tidy.seed_or_edges popped, leaves,
    fun join joins => ((tidy.mergedState_conditions popped).2 join).mpr
      (.inr joins)⟩

theorem Turns.recorded
    (turns : problem.Turns solver statistics start log run after) :
    ∀ turn ∈ log, turn.Recorded problem := by
  induction turns with
  | seeded made => simp
  | turn earlier popped _ takes induction =>
      rw [List.forall_mem_cons]
      refine ⟨recorded_of_pop earlier.searched.tidy popped ?_, induction⟩
      rcases takes.dropped_or_merges with ⟨_, rfl, _⟩ | merges
      · simp
      · exact merges.leaves

/-- Whatever waits continues a chain. -/
theorem Turns.continues
    (turns : problem.Turns solver statistics start log run after) :
    ∀ state ∈ run.waiting, Continues problem log state := by
  induction turns with
  | seeded made =>
      rcases seed_eq_ok made with ⟨versions, _, _, rfl⟩
      intro state member
      rcases mem_waiting_enqueue member with old | rfl
      · simp [Run.waiting, Worklist.waiting, Worklist.empty] at old
      · exact .inl ⟨versions, rfl⟩
  | @turn log run next batch rest before after ways earlier popped stepped
      takes induction =>
      intro state member
      have later : ∀ state ∈ run.waiting,
          Continues problem (⟨run.leaving rest, batch, ways⟩ :: log) state :=
        fun state waits => (induction state waits).mono
          (List.subset_cons_self _ _)
      rcases takes.dropped_or_merges with ⟨_, _, rfl⟩ | merges
      · exact later state (Run.Tidy.mem_waiting_of_rest popped member)
      · rw [Run.waiting, merges.worklist] at member
        rcases mem_waiting_queueAll member with left | ⟨edge, inside, rfl⟩
        · exact later state (Run.Tidy.mem_waiting_of_rest popped left)
        · -- A batch is never empty, so that some chain comes to this merge.
          rcases List.exists_mem_of_ne_nil _
            (earlier.searched.tidy.filed_of_batch popped).occupied with
            ⟨arrival, arrives⟩
          rcases (later arrival (Run.Tidy.mem_waiting_of_batch popped
            arrives)).chain List.mem_cons_self (decide_eq_true merges.fresh)
            arrives with ⟨shorter, chain⟩
          exact .inr ⟨_, shorter, chain, List.mem_map_of_mem inside⟩

/-- The log says of each turn what it does, and chains come to every merge. -/
structure Chained (problem : Problem) (log : List Turn) : Prop where
  recorded : ∀ turn ∈ log, turn.Recorded problem
  chains : ∀ turn ∈ log, problem.admits turn = true →
    ∀ arrival ∈ turn.batch.states,
      ∃ earlier, Chain problem log (⟨turn, arrival⟩ :: earlier)

theorem Chained.cons
    (chained : problem.Chained log)
    (turns : problem.Turns solver statistics start log run after)
    (popped : run.worklist.pop? = some (batch, rest))
    (recorded : Turn.Recorded problem ⟨run.leaving rest, batch, ways⟩) :
    problem.Chained (⟨run.leaving rest, batch, ways⟩ :: log) where
  recorded := List.forall_mem_cons.mpr ⟨recorded, chained.recorded⟩
  chains := by
    have inside := List.subset_cons_self ⟨run.leaving rest, batch, ways⟩ log
    rw [List.forall_mem_cons]
    constructor
    · intro admitted arrival arrives
      have waits := Run.Tidy.mem_waiting_of_batch popped arrives
      exact ((turns.continues arrival waits).mono inside).chain
        List.mem_cons_self admitted arrives
    · intro turn logged admitted arrival arrives
      rcases chained.chains turn logged admitted arrival arrives with
        ⟨shorter, chain⟩
      exact ⟨shorter, chain.mono inside⟩

theorem Turns.chained
    (turns : problem.Turns solver statistics start log run after) :
    problem.Chained log := by
  induction turns with
  | seeded made => exact ⟨by simp, by simp⟩
  | turn earlier popped stepped takes induction =>
      refine induction.cons earlier popped ?_
      exact (Turns.turn earlier popped stepped takes).recorded _
        List.mem_cons_self

theorem Stops.chained
    {result : Except Failure Report}
    (stops : problem.Stops solver statistics start log result after) :
    problem.Chained log := by
  cases stops with
  | exhausted turns empty => exact turns.chained
  | finished turns popped stepped =>
      exact turns.chained.cons turns popped
        (recorded_of_pop turns.searched.tidy popped (by simp))
  | failed turns popped stepped =>
      exact turns.chained.cons turns popped
        (recorded_of_pop turns.searched.tidy popped (by simp))

end Problem

theorem Explored.chained
    {graph : FlowGraph} {targets : List BlockId} {maxVisits : Nat}
    {result : Except Failure Report}
    (explored : Explored solver graph targets maxVisits start log result
      after) :
    (Problem.ofTargets graph targets maxVisits).Chained log := by
  cases explored with
  | foreign found => exact ⟨by simp, by simp⟩
  | unranked outside => exact ⟨by simp, by simp⟩
  | unseeded entered violated => exact ⟨by simp, by simp⟩
  | searched entered stops => exact stops.chained

end Log

/--
Single assignment.  Every search has a log, and some chain of visits comes to
every merge of it, by any of the states that were merged.

Along every chain the version of a symbol never decreases.  No version is
defined twice, be it by an assignment or by the join for the edge that the
chain came by, and the terms that define it stand in the conditions of the
search.  And whatever an operation reads, other than a version zero, was
defined earlier on the chain, at the latest by the join of the same visit.
-/
theorem chains_assign_once
    {State : Type} (solver : Backend State) (graph : FlowGraph)
    (targets : List BlockId) (maxVisits : Nat) (start : State) :
    let problem := Problem.ofTargets graph targets maxVisits
    (∃ log, Explored solver graph targets maxVisits start log
      (explore solver graph targets maxVisits (.start start)).1
      (explore solver graph targets maxVisits (.start start)).2) ∧
    ∀ log result after,
      Explored solver graph targets maxVisits start log result after →
      (∀ turn ∈ log, problem.admits turn = true →
        ∀ arrival ∈ turn.batch.states,
          ∃ earlier, Chain problem log (⟨turn, arrival⟩ :: earlier)) ∧
      ∀ chain, Chain problem log chain →
        (∀ key, (chain.flatMap Visit.versions).Pairwise
          (fun later earlier => earlier.get key ≤ later.get key)) ∧
        (chain.flatMap (Visit.definitions graph)).Nodup ∧
        (∀ visit ∈ chain, visit.Stated graph) ∧
        ∀ later visit earlier, chain = later ++ visit :: earlier →
          ∀ encoded, visit.compiled graph = .ok encoded →
          ∀ (key : SymbolKey) (version : Nat), 0 < version →
            key.versioned version ∈ encoded.reads →
            key.versioned version ∈
              visit.joined ++ earlier.flatMap (Visit.definitions graph) := by
  intro problem
  refine ⟨exists_explored solver graph targets maxVisits start, ?_⟩
  intro log result after explored
  have chained : problem.Chained log := explored.chained
  refine ⟨chained.chains, ?_⟩
  intro chain made
  have once : (chain.flatMap (Visit.definitions problem.graph)).Nodup :=
    made.nodup_definitions chained.recorded
  refine ⟨made.pairwise_versions chained.recorded, once, ?_, ?_⟩
  · intro visit member
    have arrives := made.arrives_of_mem member
    exact Visit.stated (chained.recorded _ arrives.1) arrives.2
  rintro later visit earlier rfl encoded compiled key version positive read
  exact made.of_append.mem_definitions_of_reads chained.recorded compiled
    positive read

-- The head of a loop doubles its count.  For a chain that comes from
-- outside, the join makes version 2 current; for one that comes around it
-- already is.  Either way the visit reads version 2 and mints version 3.
example :
    let count : Variable := ⟨0, "count", .integer false 8⟩
    let key : SymbolKey := ⟨count.stem, .bitVec 8⟩
    let graph : FlowGraph := ⟨0, [count], [],
      [some (.assign count (.binary .add (.var count) (.var count)))],
      [⟨0, 2, .unconditional⟩, ⟨2, 2, .unconditional⟩]⟩
    let along (version : Nat) : PathState :=
      Departure.state (.seed graph.entry .empty) (reachMarker graph.entry 0)
        ⟨⟨0, 2⟩, .bool true, VersionMap.empty.insert key version⟩
    let turn : Turn :=
      ⟨⟨.empty, [], .atStart graph [], 0⟩, ⟨1, ⟨0, 2⟩, [along 0, along 2]⟩,
        none⟩
    (Visit.mk turn (along 0)).definitions graph =
        [key.versioned 3, key.versioned 2] ∧
      (Visit.mk turn (along 2)).definitions graph = [key.versioned 3] ∧
      ((Visit.mk turn (along 0)).compiled graph).map EncodedOperation.reads =
        .ok [key.versioned 2] := by
  decide +kernel

end FlowWitness.Exploration
