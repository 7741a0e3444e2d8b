import FlowWitness.Proofs.Exploration.SearchLog
import FlowWitness.Proofs.Solver.Introductions

/-!
# The vocabulary of a search

Everything that a search says to its solver is about markers and about
versions of the variables of the graph.  Where each of these variables has a
number of its own, the name of such a symbol tells its sort.  So no name is
used with two signatures, in one session or in several.
-/

namespace FlowWitness.Smt.Term

/-! ## Terms over some symbols -/

/-- The declared symbols of the term are among those allowed. -/
def Over (allowed : FunctionSymbol → Prop) (term : Term) : Prop :=
  ∀ symbol ∈ term.declarations, allowed symbol

variable {allowed : FunctionSymbol → Prop}

theorem over_iff {term : Term} :
    term.Over allowed ↔
      (∀ symbol, term.function? = some symbol → symbol.isBuiltin = false →
        allowed symbol) ∧
      ∀ argument ∈ term.arguments, argument.Over allowed := by
  simp only [Over, mem_declarations]
  constructor
  · intro covered
    refine ⟨?_, ?_⟩
    · intro symbol applied declared
      exact covered symbol ⟨declared, .here applied⟩
    · intro argument part symbol member
      exact covered symbol ⟨member.1, .inside part member.2⟩
  · rintro ⟨head, parts⟩ symbol ⟨declared, mentioned⟩
    rcases mentions_iff.mp mentioned with applied | ⟨argument, part, inside⟩
    · exact head symbol applied declared
    · exact parts argument part symbol ⟨declared, inside⟩

theorem over_bool (value : Bool) : (bool value).Over allowed :=
  over_iff.mpr ⟨by simp [function?], by simp [arguments]⟩

theorem over_bitVec (value width : Nat) : (bitVec value width).Over allowed :=
  over_iff.mpr ⟨by simp [function?], by simp [arguments]⟩

theorem over_constant
    {name : String} {sort : SmtSort} (among : allowed (.constant name sort)) :
    (constant name sort).Over allowed := by
  refine over_iff.mpr ⟨?_, by simp [constant, arguments]⟩
  rintro symbol ⟨rfl⟩ _
  exact among

theorem Over.applyUnary
    {argument : Term} (covered : argument.Over allowed)
    (function : UnaryFunction) :
    (argument.applyUnary function).Over allowed := by
  refine over_iff.mpr ⟨?_, by simpa [Term.applyUnary, arguments] using covered⟩
  rintro symbol ⟨rfl⟩ declared
  simp [FunctionSymbol.isBuiltin] at declared

theorem Over.applyBinary
    {first second : Term} (onFirst : first.Over allowed)
    (onSecond : second.Over allowed) (function : BinaryFunction) :
    (Term.applyBinary function first second).Over allowed := by
  refine over_iff.mpr ⟨?_, ?_⟩
  · rintro symbol ⟨rfl⟩ declared
    simp [FunctionSymbol.isBuiltin] at declared
  · simp only [Term.applyBinary, arguments, List.forall_mem_cons]
    exact ⟨onFirst, onSecond, by simp⟩

theorem over_foldl
    {function : BinaryFunction} {terms : List Term}
    (covered : ∀ term ∈ terms, term.Over allowed)
    {first : Term} (start : first.Over allowed) :
    (terms.foldl (Term.applyBinary function) first).Over allowed := by
  induction terms generalizing first with
  | nil => exact start
  | cons head rest induction =>
      rw [List.forall_mem_cons] at covered
      exact induction covered.2 (start.applyBinary covered.1 function)

theorem over_joined
    (function : BinaryFunction) (neutral : Bool) (terms : List Term) :
    (∀ term ∈ terms, term.Over allowed) →
      Over allowed (match terms with
        | [] => bool neutral
        | first :: rest => rest.foldl (Term.applyBinary function) first) := by
  intro covered
  cases terms with
  | nil => exact over_bool neutral
  | cons first rest =>
      rw [List.forall_mem_cons] at covered
      exact over_foldl covered.2 covered.1

theorem over_conjoin
    {terms : List Term} (covered : ∀ term ∈ terms, term.Over allowed) :
    (conjoin terms).Over allowed :=
  over_joined .and true _ (fun term member =>
    covered term (List.mem_of_mem_filter member))

theorem over_disjoin
    {terms : List Term} (covered : ∀ term ∈ terms, term.Over allowed) :
    (disjoin terms).Over allowed :=
  over_joined .or false _ (fun term member =>
    covered term (List.mem_of_mem_filter member))

end FlowWitness.Smt.Term

namespace FlowWitness.Exploration

open FlowWitness.Graph
open FlowWitness.Program
open FlowWitness.Smt
open FlowWitness.Solver
open FlowWitness.Solver.Conversation

/-! ## Symbols of a search -/

/-- The key is that of a variable of the graph. -/
def IsKeyOf (graph : FlowGraph) (key : SymbolKey) : Prop :=
  ∃ target ∈ graph.mentioned, keyOf target = .ok key

/-- What a search of the graph can speak of. -/
inductive Vocabulary (graph : FlowGraph) : FunctionSymbol → Prop where
  | marker (block : BlockId) (visit : Nat) :
      Vocabulary graph (.constant (markerName block visit) .bool)
  | version {key : SymbolKey} (own : IsKeyOf graph key) (version : Nat) :
      Vocabulary graph (.constant (key.versionName version) key.sort)

/-- If its variables are numbered well, a key of the graph is known by name. -/
theorem IsKeyOf.eq_of_name_eq
    {graph : FlowGraph} (wellNumbered : graph.WellNumbered)
    {first second : SymbolKey} (own : IsKeyOf graph first)
    (ownToo : IsKeyOf graph second) (same : first.name = second.name) :
    first = second := by
  rcases own with ⟨target, member, found⟩
  rcases ownToo with ⟨other, memberToo, foundToo⟩
  rw [(keyOf_eq_ok found).1, (keyOf_eq_ok foundToo).1] at same
  rw [eq_of_stem_eq wellNumbered member memberToo same, foundToo,
    Except.ok.injEq] at found
  exact found.symm

/-- The name of a symbol tells its signature. -/
theorem Vocabulary.eq_of_name_eq
    {graph : FlowGraph} (wellNumbered : graph.WellNumbered)
    {symbol other : FunctionSymbol} (first : Vocabulary graph symbol)
    (second : Vocabulary graph other) (same : symbol.name = other.name) :
    symbol = other := by
  cases first with
  | marker block visit =>
      cases second with
      | marker block visit => exact congrArg (FunctionSymbol.constant · _) same
      | version own version =>
          exact (versionName_ne_markerName _ _ _ _ same.symm).elim
  | @version key own version =>
      cases second with
      | marker block visit =>
          exact (versionName_ne_markerName _ _ _ _ same).elim
      | @version otherKey ownToo otherVersion =>
          have names := (SymbolKey.versionName_injective same).1
          have keys := own.eq_of_name_eq wellNumbered ownToo names
          subst keys
          exact congrArg (FunctionSymbol.constant · _) same

section Encoding

variable {graph : FlowGraph}

theorem over_versioned
    {key : SymbolKey} (own : IsKeyOf graph key) (version : Nat) :
    (key.versioned version).Over (Vocabulary graph) :=
  Term.over_constant (.version own version)

theorem over_reachMarker (block : BlockId) (visit : Nat) :
    (reachMarker block visit).Over (Vocabulary graph) :=
  Term.over_constant (.marker block visit)

theorem over_encodeConstant
    {constant : Constant} {term : Term}
    (encoded : encodeConstant constant = .ok term) :
    term.Over (Vocabulary graph) := by
  unfold encodeConstant at encoded
  split at encoded
  · simp only [Except.ok.injEq] at encoded
    subst term
    exact Term.over_bool _
  · split at encoded
    · simp only [Except.ok.injEq] at encoded
      subst term
      exact Term.over_bitVec _ _
    · simp at encoded
    · simp at encoded

theorem over_encodeUnary
    {expression : Expression} {operator : UnaryOperator} {operand term : Term}
    (covered : operand.Over (Vocabulary graph))
    (encoded : encodeUnary expression operator operand = .ok term) :
    term.Over (Vocabulary graph) := by
  unfold encodeUnary at encoded
  split at encoded
  · simp only [Except.ok.injEq] at encoded
    subst term
    exact covered.applyUnary _
  · simp at encoded

theorem over_encodeBinary
    {expression : Expression} {operator : BinaryOperator} {signed : Bool}
    {left right term : Term} (onLeft : left.Over (Vocabulary graph))
    (onRight : right.Over (Vocabulary graph))
    (encoded : encodeBinary expression operator signed left right = .ok term) :
    term.Over (Vocabulary graph) := by
  unfold encodeBinary at encoded
  split at encoded
  · split at encoded
    · simp only [Except.ok.injEq] at encoded
      subst term
      exact onLeft.applyBinary onRight _
    · simp only [Except.ok.injEq] at encoded
      subst term
      exact (onLeft.applyBinary onRight _).applyUnary _
    · split at encoded
      · simp only [Except.ok.injEq] at encoded
        subst term
        exact onLeft.applyBinary onRight _
      · simp at encoded
  · simp at encoded

/-- An expression over variables of the graph is encoded over their symbols. -/
theorem over_encodeExpression
    {versions : VersionMap} {expression : Expression} {term : Term}
    (inside : ∀ target ∈ expression.mentioned, target ∈ graph.mentioned)
    (encoded : encodeExpression versions expression = .ok term) :
    term.Over (Vocabulary graph) := by
  induction expression generalizing term with
  | var target =>
      rw [encodeExpression] at encoded
      split at encoded
      · next key found =>
          simp only [Except.ok.injEq] at encoded
          subst term
          exact over_versioned
            ⟨target, inside target List.mem_cons_self, found⟩ _
      · simp at encoded
  | constant value => exact over_encodeConstant encoded
  | unary operator operand onOperand =>
      rw [encodeExpression] at encoded
      split at encoded
      · next inner found =>
          exact over_encodeUnary (onOperand inside found) encoded
      · simp at encoded
  | binary operator left right onLeft onRight =>
      rw [Expression.mentioned, List.forall_mem_append] at inside
      rw [encodeExpression] at encoded
      split at encoded
      · simp at encoded
      · next leftTerm leftFound =>
          split at encoded
          · simp at encoded
          · next rightTerm rightFound =>
              exact over_encodeBinary (onLeft inside.1 leftFound)
                (onRight inside.2 rightFound) encoded

end Encoding

/-! ## States of a search -/

/-- The versions are of variables of the graph. -/
def VersionMap.Within (graph : FlowGraph) (versions : VersionMap) : Prop :=
  ∀ entry ∈ versions.entries, IsKeyOf graph entry.1

/-- What the state holds is about markers and variables of the graph. -/
structure PathState.Within (graph : FlowGraph) (state : PathState) : Prop where
  conditions : ∀ term ∈ state.conditions.terms, term.Over (Vocabulary graph)
  versions : state.versions.Within graph
  source : ∀ edge, state.pending = some edge →
    edge.sourceMarker.Over (Vocabulary graph)
  taken : ∀ edge, state.pending = some edge →
    edge.condition.Over (Vocabulary graph)

section Merging

variable {graph : FlowGraph} {states : List PathState}

theorem VersionMap.Within.insert
    {versions : VersionMap} (within : versions.Within graph)
    {key : SymbolKey} (own : IsKeyOf graph key) (version : Nat) :
    (versions.insert key version).Within graph := by
  intro entry member
  rcases mem_place member with rfl | old
  · exact own
  · exact within entry old

theorem within_mergedVersions
    (within : ∀ state ∈ states, state.Within graph) :
    (mergedVersions states).Within graph := by
  intro entry member
  rcases VersionMap.mem_mergeAll member with ⟨map, inside, inMap⟩
  rcases List.mem_map.mp inside with ⟨state, among, rfl⟩
  exact (within state among).versions entry inMap

theorem over_edgeCondition
    {merged : VersionMap} (within : merged.Within graph) {edge : PendingEdge}
    (source : edge.sourceMarker.Over (Vocabulary graph))
    (taken : edge.condition.Over (Vocabulary graph)) :
    (edgeCondition merged edge).Over (Vocabulary graph) := by
  apply Term.over_conjoin
  rw [List.forall_mem_cons, List.forall_mem_cons]
  refine ⟨source, taken, ?_⟩
  intro term member
  rcases List.mem_filterMap.mp member with ⟨⟨key, version⟩, inside, joins⟩
  have own : IsKeyOf graph key := within _ inside
  simp only [joinEquation?] at joins
  split at joins
  · simp at joins
  · simp only [Option.some.injEq] at joins
    subst term
    exact (over_versioned own _).applyBinary (over_versioned own _) _

theorem over_join
    (within : ∀ state ∈ states, state.Within graph)
    {marker : Term} (marks : marker.Over (Vocabulary graph)) {join : Term}
    (joins : joinCondition? marker (mergedVersions states) states = some join) :
    join.Over (Vocabulary graph) := by
  rw [joinCondition?_eq_some joins]
  refine marks.applyBinary (Term.over_disjoin ?_) _
  intro term member
  rcases List.mem_map.mp member with ⟨edge, inEdges, rfl⟩
  rcases List.mem_filterMap.mp inEdges with ⟨state, inside, pending⟩
  exact over_edgeCondition (within_mergedVersions within)
    ((within state inside).source edge pending)
    ((within state inside).taken edge pending)

end Merging

/-- The ways out of a block are about variables of the graph as well. -/
theorem Leaves.within
    {graph : FlowGraph} {block : BlockId} {versions : VersionMap}
    {edges : List Departure} (leaves : Leaves graph block versions edges)
    (within : versions.Within graph) {edge : Departure}
    (member : edge ∈ edges) :
    edge.condition.Over (Vocabulary graph) ∧ edge.versions.Within graph := by
  cases leaves with
  | stop shape => simp at member
  | pass idle shape =>
      rw [List.mem_singleton] at member
      subst edge
      exact ⟨Term.over_bool true, within⟩
  | @assign next target value key term assigns shape encoded found sorted =>
      rw [List.mem_singleton] at member
      subst edge
      have mentioned : ∀ other ∈ target :: value.mentioned,
          other ∈ graph.mentioned :=
        fun _ => FlowGraph.mem_mentioned_of_operation assigns
      rw [List.forall_mem_cons] at mentioned
      have own : IsKeyOf graph key := ⟨target, mentioned.1, found⟩
      exact ⟨(over_versioned own _).applyBinary
        (over_encodeExpression mentioned.2 encoded) _, within.insert own _⟩
  | @branch onTrue onFalse condition term jumps shape encoded boolean =>
      have covered : term.Over (Vocabulary graph) :=
        over_encodeExpression
          (fun _ => FlowGraph.mem_mentioned_of_operation jumps) encoded
      simp only [List.mem_cons, List.not_mem_nil, or_false] at member
      rcases member with rfl | rfl
      · exact ⟨Term.over_conjoin (by simp [covered, Term.over_bool]), within⟩
      · have negated : term.negation.Over (Vocabulary graph) :=
          covered.applyUnary _
        refine ⟨?_, within⟩
        change (Term.conjoin [term.negation, .bool true]).Over _
        exact Term.over_conjoin (by simp [negated, Term.over_bool])

/-! ## Runs of a search -/

/-- All that waits is about markers and variables of the graph. -/
def Run.Within (graph : FlowGraph) (run : Run) : Prop :=
  ∀ state ∈ run.waiting, state.Within graph

namespace Run.Within

variable {problem : Problem} {run : Run} {batch : Batch PathState}
  {rest : Worklist PathState}

theorem over_mergedState
    (within : run.Within problem.graph) (tidy : run.Tidy problem)
    (popped : run.worklist.pop? = some (batch, rest)) {term : Term}
    (member : term ∈
      ((run.leaving rest).mergedState batch).conditions.terms) :
    term.Over (Vocabulary problem.graph) := by
  have arrived : ∀ state ∈ batch.states, state.Within problem.graph :=
    fun state inside => within state (Tidy.mem_waiting_of_batch popped inside)
  rcases ((tidy.mergedState_conditions popped).2 term).mp member with
    ⟨state, inside, inTerms⟩ | joins
  · exact (arrived state inside).conditions term inTerms
  · exact over_join arrived (over_reachMarker _ _) joins

/-- A move queues only what is about the graph. -/
theorem move
    (within : run.Within problem.graph) (tidy : run.Tidy problem)
    (popped : run.worklist.pop? = some (batch, rest))
    {State : Type} {solver : Backend State} {before : Dialogue State}
    {next : Run}
    (moves : problem.Moves solver before (run.leaving rest) batch next) :
    next.Within problem.graph := by
  intro state member
  rcases moves.mem_waiting member with old | ⟨_, leaves, edge, inside, rfl⟩
  · exact within state (Tidy.mem_waiting_of_rest popped old)
  · have merged := within_mergedVersions fun state inside =>
      within state (Tidy.mem_waiting_of_batch popped inside)
    rcases leaves.within merged inside with ⟨covered, versions⟩
    refine ⟨fun _ => within.over_mergedState tidy popped, versions, ?_, ?_⟩
    · rintro _ ⟨rfl⟩
      exact over_reachMarker _ _
    · rintro _ ⟨rfl⟩
      exact covered

end Run.Within

theorem within_seedVersions
    {graph : FlowGraph} {parameters : List Variable}
    (inside : ∀ parameter ∈ parameters, parameter ∈ graph.mentioned)
    {versions result : VersionMap} (within : versions.Within graph)
    (seeded : Problem.seedVersions parameters versions = .ok result) :
    result.Within graph := by
  induction parameters generalizing versions with
  | nil =>
      simp only [Problem.seedVersions, Except.ok.injEq] at seeded
      subst result
      exact within
  | cons parameter rest induction =>
      rw [List.forall_mem_cons] at inside
      rw [Problem.seedVersions] at seeded
      split at seeded
      · next key found =>
          exact induction inside.2
            (within.insert ⟨parameter, inside.1, found⟩ 0) seeded
      · simp at seeded

theorem Run.Within.start
    {problem : Problem} {statistics : Statistics} {run : Run}
    (seeded : problem.seed statistics = .ok run) :
    run.Within problem.graph := by
  unfold Problem.seed at seeded
  split at seeded
  · next versions made =>
      simp only [Except.ok.injEq] at seeded
      subst run
      have within : versions.Within problem.graph :=
        within_seedVersions (fun _ => List.mem_append_left _)
          (by simp [VersionMap.Within, VersionMap.empty]) made
      intro state member
      rcases Problem.mem_waiting_enqueue member with old | rfl
      · simp [Run.waiting, Worklist.waiting, Worklist.empty] at old
      · exact ⟨by simp [PathState.seed, ConditionStack.terms,
          ConditionStack.empty], within, by simp [PathState.seed],
          by simp [PathState.seed]⟩
  · simp at seeded

theorem Problem.Searched.within
    {State : Type} {problem : Problem} {solver : Backend State} {run : Run}
    (searched : problem.Searched solver run) :
    run.Within problem.graph := by
  induction searched with
  | start seeded => exact .start seeded
  | move searched popped moves induction =>
      exact induction.move searched.tidy popped moves

/-! ## What a search says -/

/-- The call to a session that an interaction with the solver is. -/
def sessionCall? : Interaction → Option SessionCall
  | .asserted term _ => some (.assertTerm term)
  | .evaluated term _ => some (.evaluate term)
  | .checked _ => some .checkSat
  | .opened _ | .closed _ => none

/-- The call uses no symbols but those of the vocabulary. -/
def CallWithin (graph : FlowGraph) (call : Interaction) : Prop :=
  ∀ said, sessionCall? call = some said →
    ∀ symbol ∈ said.symbols, Vocabulary graph symbol

theorem callWithin_of_asks
    {graph : FlowGraph} {terms : List Term}
    (covered : ∀ term ∈ terms, term.Over (Vocabulary graph))
    {call : Interaction} (asks : Asks graph.parameters terms call) :
    CallWithin graph call := by
  cases call with
  | asserted term answer =>
      rintro _ ⟨rfl⟩
      exact covered term asks
  | evaluated term answer =>
      rcases asks with ⟨parameter, member, key, found, rfl⟩
      rintro _ ⟨rfl⟩
      exact over_versioned
        ⟨parameter, List.mem_append_left _ member, found⟩ 0
  | checked answer =>
      rintro _ ⟨rfl⟩
      simp
  | opened answer | closed answer => simp [CallWithin, sessionCall?]

theorem callsWithin_explore
    {State : Type} (solver : Backend State) (graph : FlowGraph)
    (targets : List BlockId) (maxVisits : Nat) :
    CallsOnly (CallWithin graph) (explore solver graph targets maxVisits) := by
  refine Problem.callsOnly_explore fun {run batch rest} searched popped => ?_
  refine (Problem.callsOnly_step solver _ _).mono fun _ =>
    callWithin_of_asks (List.forall_mem_append.mpr ⟨?_, ?_⟩)
  · exact fun _ => searched.within.over_mergedState searched.tidy popped
  · rw [List.forall_mem_singleton]
    exact over_reachMarker _ _

/--
If every variable of a graph has a number of its own, a search of it uses no
name with two signatures, whatever the solver answers.
-/
theorem searches_have_single_signatures
    {State : Type} (solver : Backend State) {graph : FlowGraph}
    (wellNumbered : graph.WellNumbered) (targets : List BlockId)
    (maxVisits : Nat) (start : State) :
    SingleSignatures
      ((explore solver graph targets maxVisits (.start start)).2.calls.filterMap
        sessionCall?) := by
  have within : ∀ call ∈
      (explore solver graph targets maxVisits (.start start)).2.calls,
      CallWithin graph call :=
    (callsWithin_explore solver graph targets maxVisits).keeps
      (by simp [Dialogue.start])
  intro first firstSaid second secondSaid symbol uses other usesOther
  rcases List.mem_filterMap.mp firstSaid with ⟨call, member, same⟩
  rcases List.mem_filterMap.mp secondSaid with ⟨later, memberToo, sameToo⟩
  exact Vocabulary.eq_of_name_eq wellNumbered
    (within call member first same symbol (SessionCall.mem_symbols.mpr uses))
    (within later memberToo second sameToo other
      (SessionCall.mem_symbols.mpr usesOther))

end FlowWitness.Exploration
