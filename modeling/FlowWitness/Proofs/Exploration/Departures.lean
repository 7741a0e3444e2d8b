import FlowWitness.Exploration.Search
import FlowWitness.Proofs.Exploration.Agreement

/-!
# Leaving a block

The ways out of a merged block, each with the condition under which it is
taken and the versions at its end, as the search derives them from the
block's operation and its edges.

They are exactly the steps of the graph.  If the condition of a way out holds
under a valuation, then the graph makes that step from every environment that
agrees with the valuation; and if the graph makes a step, then some way out
leads to the same place, and its condition can be made to hold without
changing anything that was fixed before.
-/

namespace FlowWitness.Exploration

open FlowWitness.Graph
open FlowWitness.Program
open FlowWitness.Smt

/-- A way out of a block. -/
structure Departure where
  next : BlockId
  condition : Term
  versions : VersionMap

/-- The ways out of a block over the versions before it. -/
inductive Leaves (graph : FlowGraph) (block : BlockId) (versions : VersionMap) :
    List Departure → Prop where
  | stop (shape : graph.successorShape block = .ok .none) :
      Leaves graph block versions []
  | pass {next : BlockId}
      (idle : graph.operation? block = none)
      (shape : graph.successorShape block = .ok (.unconditional next)) :
      Leaves graph block versions [⟨next, .bool true, versions⟩]
  | assign {next : BlockId} {target : Variable} {value : Expression}
      {key : SymbolKey} {term : Term}
      (assigns : graph.operation? block = some (.assign target value))
      (shape : graph.successorShape block = .ok (.unconditional next))
      (encoded : encodeExpression versions value = .ok term)
      (found : keyOf target = .ok key)
      (sorted : term.sort = key.sort) :
      Leaves graph block versions
        [⟨next, .equation (key.versioned (versions.get key + 1)) term,
          versions.insert key (versions.get key + 1)⟩]
  | branch {onTrue onFalse : BlockId} {condition : Expression} {term : Term}
      (jumps : graph.operation? block = some (.jump condition))
      (shape : graph.successorShape block = .ok (.branch onTrue onFalse))
      (encoded : encodeExpression versions condition = .ok term)
      (boolean : term.sort = .bool) :
      Leaves graph block versions
        [⟨onTrue, .conjoin [term, .bool true], versions⟩,
          ⟨onFalse, .conjoin [.negation term, .bool true], versions⟩]

/-! ## The search leaves a block by its ways out -/

/-- The states queued for the ways out of a merged block. -/
def Departure.state (source : PathState) (marker : Term) (edge : Departure) :
    PathState :=
  ⟨edge.next, edge.versions, source.conditions,
    some ⟨marker, edge.condition, edge.versions⟩⟩

/-- Queue a state for each of the ways out, in order. -/
def Problem.queueAll (problem : Problem) (source : PathState) (marker : Term)
    (edges : List Departure) (run : Run) : Run :=
  edges.foldl (fun soFar edge =>
    problem.enqueue soFar (edge.state source marker)) run

theorem encodeJump_eq_ok
    {versions : VersionMap} {condition : Expression} {encoded : EncodedOperation}
    (done : encodeJump versions condition = .ok encoded) :
    ∃ term, encodeExpression versions condition = .ok term ∧
      term.sort = .bool ∧
      encoded = ⟨some term, .bool true, versions, none⟩ := by
  unfold encodeJump at done
  split at done
  · simp at done
  · next term translated =>
      split at done
      · next boolean =>
          simp only [Except.ok.injEq] at done
          exact ⟨term, translated, boolean, done.symm⟩
      · simp at done

theorem encodeAssignment_eq_ok
    {versions : VersionMap} {target : Variable} {value : Expression}
    {encoded : EncodedOperation}
    (done : encodeAssignment versions target value = .ok encoded) :
    ∃ term key, encodeExpression versions value = .ok term ∧
      keyOf target = .ok key ∧ term.sort = key.sort ∧
      encoded = ⟨none, .equation (key.versioned (versions.get key + 1)) term,
        versions.insert key (versions.get key + 1),
        some (key, versions.get key + 1)⟩ := by
  unfold encodeAssignment at done
  split at done
  · simp at done
  · next term translated =>
      split at done
      · simp at done
      · next key found =>
          split at done
          · next sorted =>
              simp only [VersionMap.bump, Except.ok.injEq] at done
              exact ⟨term, key, translated, found, sorted, done.symm⟩
          · simp at done

/-- Advancing over a merged block queues its ways out. -/
theorem Problem.advance_eq_ok
    {problem : Problem} {run next : Run} {source : PathState} {marker : Term}
    (moved : problem.advance run source marker = .ok next) :
    ∃ edges, Leaves problem.graph source.block source.versions edges ∧
      next = problem.queueAll source marker edges run := by
  unfold Problem.advance at moved
  split at moved
  · simp at moved
  · next encoded operation =>
      split at moved
      · simp at moved
      · next shape shaped =>
          cases does : problem.graph.operation? source.block with
          | none =>
              simp only [does, encodeOperation, EncodedOperation.nothing,
                Except.ok.injEq] at operation
              subst encoded
              cases shape with
              | none =>
                  simp only [Except.ok.injEq] at moved
                  exact ⟨[], .stop shaped, moved.symm⟩
              | unconditional onward =>
                  simp only [Except.ok.injEq] at moved
                  exact ⟨_, .pass does shaped, moved.symm⟩
              | branch onTrue onFalse => simp at moved
          | some performed =>
              rw [does] at operation
              cases performed with
              | jump condition =>
                  rcases encodeJump_eq_ok operation with
                    ⟨term, translated, boolean, rfl⟩
                  cases shape with
                  | none => simp at moved
                  | unconditional onward => simp at moved
                  | branch onTrue onFalse =>
                      simp only [Except.ok.injEq] at moved
                      exact ⟨_, .branch does shaped translated boolean,
                        moved.symm⟩
              | assign target value =>
                  rcases encodeAssignment_eq_ok operation with
                    ⟨term, key, translated, found, sorted, rfl⟩
                  cases shape with
                  | none =>
                      simp only [Except.ok.injEq] at moved
                      exact ⟨[], .stop shaped, moved.symm⟩
                  | unconditional onward =>
                      simp only [Except.ok.injEq] at moved
                      exact ⟨_, .assign does shaped translated found sorted,
                        moved.symm⟩
                  | branch onTrue onFalse => simp at moved
              | call signature arguments results =>
                  simp [encodeOperation] at operation

/-! ## Ways out are well formed -/

namespace Leaves

variable {graph : FlowGraph} {block : BlockId} {versions : VersionMap}
  {edges : List Departure}

theorem isCondition
    (leaves : Leaves graph block versions edges)
    {edge : Departure} (member : edge ∈ edges) :
    edge.condition.IsCondition := by
  cases leaves with
  | stop shape => simp at member
  | pass idle shape =>
      rw [List.mem_singleton] at member
      subst edge
      exact Term.isCondition_bool true
  | assign assigns shape encoded found sorted =>
      rw [List.mem_singleton] at member
      subst edge
      exact Term.isCondition_equation (wellSorted_versioned found _)
        (encodeExpression_means encoded).wellSorted sorted.symm
  | @branch onTrue onFalse condition term jumps shape encoded boolean =>
      have condition : term.IsCondition :=
        ⟨(encodeExpression_means encoded).wellSorted, boolean⟩
      simp only [List.mem_cons, List.not_mem_nil, or_false] at member
      rcases member with rfl | rfl
      · exact Term.isCondition_conjoin
          (by simp [condition, Term.isCondition_bool])
      · change (Term.conjoin [term.negation, .bool true]).IsCondition
        exact Term.isCondition_conjoin
          (by simp [condition.negation, Term.isCondition_bool])

theorem length_le_two (leaves : Leaves graph block versions edges) :
    edges.length ≤ 2 := by
  cases leaves <;> simp

/-- Versions only grow. -/
theorem get_le
    (leaves : Leaves graph block versions edges)
    {edge : Departure} (member : edge ∈ edges) (key : SymbolKey) :
    versions.get key ≤ edge.versions.get key := by
  cases leaves with
  | stop shape => simp at member
  | pass idle shape =>
      rw [List.mem_singleton] at member
      subst edge
      exact Nat.le_refl _
  | @assign next target value assigned term assigns shape encoded found sorted =>
      rw [List.mem_singleton] at member
      subst edge
      exact VersionMap.get_le_get_insert _ (Nat.le_succ _) key
  | branch jumps shape encoded boolean =>
      simp only [List.mem_cons, List.not_mem_nil, or_false] at member
      rcases member with rfl | rfl <;> exact Nat.le_refl _

theorem regular
    (leaves : Leaves graph block versions edges)
    (before : versions.Regular)
    {edge : Departure} (member : edge ∈ edges) :
    edge.versions.Regular := by
  cases leaves with
  | stop shape => simp at member
  | pass idle shape =>
      rw [List.mem_singleton] at member
      subst edge
      exact before
  | assign assigns shape encoded found sorted =>
      rw [List.mem_singleton] at member
      subst edge
      exact before.insert (isGround_of_sortOf (keyOf_eq_ok found).2) _
  | branch jumps shape encoded boolean =>
      simp only [List.mem_cons, List.not_mem_nil, or_false] at member
      rcases member with rfl | rfl <;> exact before

end Leaves

/-! ## The meaning of an assignment -/

/-- A value of the sort of a variable's symbols is a value of its type. -/
theorem hasType_of_keyOf
    {target : Variable} {key : SymbolKey} (found : keyOf target = .ok key)
    {value : Value} (sorted : value.sort = key.sort) :
    value.hasType target.dataType = true := by
  rcases sortOf_eq_ok (keyOf_eq_ok found).2 with
    ⟨typed, keySort⟩ | ⟨signed, bits, typed, keySort, _, _⟩
  · rw [keySort] at sorted
    rw [typed]
    cases value with
    | bool truth => rfl
    | word width word => simp [Value.sort] at sorted
  · rw [keySort] at sorted
    rw [typed]
    cases value with
    | bool truth => simp [Value.sort] at sorted
    | word width word => simpa [Value.sort, Value.hasType] using sorted

theorem Means.eval_eq
    {versions : VersionMap} {term : Term} {expression : Expression}
    (means : Means versions term expression)
    {scope : List Variable}
    (mentioned : ∀ target ∈ expression.mentioned, target ∈ scope)
    {environment : Environment} {valuation : Valuation}
    (agrees : Environment.AgreeOn scope environment
      (environmentOf valuation versions)) :
    expression.eval environment = term.eval valuation := by
  rw [means.value]
  exact expression.eval_congr
    (fun target member => agrees target (mentioned target member))

/--
After an assignment, the environment agrees with a valuation that gives the
value to the next version of the target.
-/
theorem agreeOn_assign
    {graph : FlowGraph} (wellNumbered : graph.WellNumbered)
    {target : Variable} (known : target ∈ graph.mentioned)
    {key : SymbolKey} (found : keyOf target = .ok key)
    {value : Value} (sorted : value.sort = key.sort)
    {environment : Environment} {valuation : Valuation} {versions : VersionMap}
    (agrees : Environment.AgreeOn graph.mentioned environment
      (environmentOf valuation versions))
    {version : Nat}
    (given : (key.versioned version).eval valuation = some value) :
    Environment.AgreeOn graph.mentioned (environment.assign target value)
      (environmentOf valuation (versions.insert key version)) := by
  intro other member
  cases same : other.same target with
  | true =>
      obtain rfl := wellNumbered other member target known same
      rw [Environment.read_assign_self _ _ _ (hasType_of_keyOf found sorted),
        read_environmentOf found, VersionMap.get_insert_self, given]
  | false =>
      rw [Environment.read_assign_of_not_same _ _ same, agrees other member]
      apply read_environmentOf_congr
      intro symbol named
      have different : symbol ≠ key := by
        rintro rfl
        have stems := named.symm.trans (keyOf_eq_ok found).1
        simp [Variable.same, id_eq_of_stem_eq stems] at same
      rw [VersionMap.get_insert_of_ne versions different]

/--
The next version of the target of an assignment is still free, and can be
given the value assigned; then the equation of the assignment holds for good.
-/
theorem exists_extended_of_assign
    {graph : FlowGraph} (wellNumbered : graph.WellNumbered)
    {block : BlockId} {target : Variable} {value : Expression}
    (assigns : graph.operation? block = some (.assign target value))
    {versions : VersionMap} {term : Term} (means : Means versions term value)
    {key : SymbolKey} (found : keyOf target = .ok key)
    {environment : Environment} {valuation : Valuation}
    (agrees : Environment.AgreeOn graph.mentioned environment
      (environmentOf valuation versions))
    {result : Value} (computed : value.eval environment = some result)
    (sorted : result.sort = key.sort) (merged : List BlockId) :
    ∃ extended, AgreesUpTo merged versions valuation extended ∧
      Environment.AgreeOn graph.mentioned (environment.assign target result)
        (environmentOf extended
          (versions.insert key (versions.get key + 1))) ∧
      ∀ other, AgreesUpTo merged (versions.insert key (versions.get key + 1))
          extended other →
        other.Satisfies
          (.equation (key.versioned (versions.get key + 1)) term) := by
  let extended := valuation.withValue
    (key.versionName (versions.get key + 1)) result
  have kept : AgreesUpTo merged versions valuation extended :=
    valuation.agreesUpTo_withVersion merged (Nat.lt_succ_self _) sorted
  have given : (key.versioned (versions.get key + 1)).eval extended =
      some result := by
    rw [SymbolKey.eval_versioned, ← sorted]
    exact valuation.read_withValue_self _ result
  have agreesExtended := kept.agreeOn agrees
  refine ⟨extended, kept, ?_, ?_⟩
  · exact agreeOn_assign wellNumbered
      (FlowGraph.mem_mentioned_of_operation assigns List.mem_cons_self)
      found sorted agreesExtended given
  · intro other agreement
    have minted : (key.versioned (versions.get key + 1)).eval other =
        some result := by
      rw [SymbolKey.eval_versioned, agreement.symbols key _ (by simp),
        ← SymbolKey.eval_versioned, given]
    -- The term reads versions from before the assignment only.
    have earlier : AgreesUpTo merged versions extended other :=
      agreement.mono (fun _ => Nat.le_refl _)
        (VersionMap.get_le_get_insert _ (Nat.le_succ _))
    have unchanged : value.eval environment = term.eval other :=
      means.eval_eq (fun _ inside => FlowGraph.mem_mentioned_of_operation
        assigns (List.mem_cons_of_mem _ inside))
        (earlier.agreeOn agreesExtended)
    exact (Valuation.satisfies_equation minted
      (unchanged.symm.trans computed) rfl).mpr rfl

/-! ## Ways out are the steps of the graph -/

namespace Leaves

variable {graph : FlowGraph} {block : BlockId} {versions : VersionMap}
  {edges : List Departure}

/-- Where the condition of a way out holds, the graph makes that step. -/
theorem next?_of_satisfies
    (leaves : Leaves graph block versions edges)
    (wellNumbered : graph.WellNumbered)
    {edge : Departure} (member : edge ∈ edges)
    {environment : Environment} {valuation : Valuation}
    (agrees : Environment.AgreeOn graph.mentioned environment
      (environmentOf valuation versions))
    (holds : valuation.Satisfies edge.condition) :
    ∃ after, graph.next? ⟨block, environment⟩ = some ⟨edge.next, after⟩ ∧
      Environment.AgreeOn graph.mentioned after
        (environmentOf valuation edge.versions) := by
  cases leaves with
  | stop shape => simp at member
  | pass idle shape =>
      rw [List.mem_singleton] at member
      subst edge
      exact ⟨environment, by simp [FlowGraph.next?, idle, shape], agrees⟩
  | @assign next target value key term assigns shape encoded found sorted =>
      rw [List.mem_singleton] at member
      subst edge
      have means := encodeExpression_means encoded
      rcases means.wellSorted.eval_eq_some valuation with
        ⟨result, evaluated, resultSort⟩
      rcases (wellSorted_versioned found
          (versions.get key + 1)).eval_eq_some valuation with
        ⟨minted, given, mintedSort⟩
      have keySort : result.sort = key.sort := resultSort.trans sorted
      have same : minted = result :=
        (Valuation.satisfies_equation given evaluated
          (mintedSort.trans keySort.symm)).mp holds
      subst minted
      have computed : value.eval environment = some result :=
        (means.eval_eq (fun _ inside => FlowGraph.mem_mentioned_of_operation
          assigns (List.mem_cons_of_mem _ inside)) agrees).trans evaluated
      refine ⟨environment.assign target result, ?_, ?_⟩
      · simp [FlowGraph.next?, assigns, shape, FlowGraph.afterAssignment,
          computed, hasType_of_keyOf found keySort]
      · exact agreeOn_assign wellNumbered
          (FlowGraph.mem_mentioned_of_operation assigns List.mem_cons_self)
          found keySort agrees given
  | @branch onTrue onFalse condition term jumps shape encoded boolean =>
      have means := encodeExpression_means encoded
      have well : term.IsCondition := ⟨means.wellSorted, boolean⟩
      rcases well.eval_eq_bool valuation with ⟨truth, evaluated⟩
      have decided : condition.eval environment = some (.bool truth) :=
        (means.eval_eq (fun _ inside => FlowGraph.mem_mentioned_of_operation
          jumps inside) agrees).trans evaluated
      simp only [List.mem_cons, List.not_mem_nil, or_false] at member
      rcases member with rfl | rfl
      · have taken := Valuation.satisfies_conjoin.mp holds term (by simp)
        rw [Valuation.Satisfies, evaluated] at taken
        simp only [Option.some.injEq, Value.bool.injEq] at taken
        subst truth
        exact ⟨environment, by simp [FlowGraph.next?, jumps, shape, decided],
          agrees⟩
      · change valuation.Satisfies (.conjoin [term.negation, .bool true]) at holds
        have notTaken :=
          Valuation.satisfies_conjoin.mp holds term.negation (by simp)
        rw [Valuation.satisfies_negation evaluated] at notTaken
        subst truth
        exact ⟨environment, by simp [FlowGraph.next?, jumps, shape, decided],
          agrees⟩

/--
Where the graph makes a step, some way out leads there, and its condition
holds under a valuation that keeps everything fixed before, and under every
other one that agrees with it at the end of the way.
-/
theorem exists_satisfied_of_next?
    (leaves : Leaves graph block versions edges)
    (wellNumbered : graph.WellNumbered)
    {environment : Environment} {valuation : Valuation}
    (agrees : Environment.AgreeOn graph.mentioned environment
      (environmentOf valuation versions))
    {after : Configuration}
    (moved : graph.next? ⟨block, environment⟩ = some after)
    (merged : List BlockId) :
    ∃ edge ∈ edges, edge.next = after.block ∧
      ∃ extended, AgreesUpTo merged versions valuation extended ∧
        Environment.AgreeOn graph.mentioned after.environment
          (environmentOf extended edge.versions) ∧
        ∀ other, AgreesUpTo merged edge.versions extended other →
          other.Satisfies edge.condition := by
  cases leaves with
  | stop shape =>
      simp only [FlowGraph.next?, shape] at moved
      split at moved <;> simp_all
  | pass idle shape =>
      simp only [FlowGraph.next?, idle, shape, Option.some.injEq] at moved
      subst after
      exact ⟨_, List.mem_cons_self, rfl, valuation, .refl _ _ _, agrees,
        fun other _ => Valuation.satisfies_bool.mpr rfl⟩
  | @assign next target value key term assigns shape encoded found sorted =>
      have means := encodeExpression_means encoded
      rcases means.wellSorted.eval_eq_some valuation with
        ⟨result, evaluated, resultSort⟩
      have keySort : result.sort = key.sort := resultSort.trans sorted
      have computed : value.eval environment = some result :=
        (means.eval_eq (fun _ inside => FlowGraph.mem_mentioned_of_operation
          assigns (List.mem_cons_of_mem _ inside)) agrees).trans evaluated
      simp only [FlowGraph.next?, assigns, shape, FlowGraph.afterAssignment,
        computed, hasType_of_keyOf found keySort, if_true, Option.map_some,
        Option.some.injEq] at moved
      subst after
      exact ⟨_, List.mem_cons_self, rfl, exists_extended_of_assign wellNumbered
        assigns means found agrees computed keySort merged⟩
  | @branch onTrue onFalse condition term jumps shape encoded boolean =>
      have means := encodeExpression_means encoded
      have stable : ∀ other, AgreesUpTo merged versions valuation other →
          term.eval other = condition.eval environment := by
        intro other agreement
        exact (means.eval_eq (fun _ inside =>
          FlowGraph.mem_mentioned_of_operation jumps inside)
          (agreement.agreeOn agrees)).symm
      simp only [FlowGraph.next?, jumps, shape] at moved
      split at moved
      · next decided =>
          simp only [Option.some.injEq] at moved
          subst after
          refine ⟨_, List.mem_cons_self, rfl, valuation, .refl _ _ _, agrees,
            ?_⟩
          intro other agreement
          rw [Valuation.satisfies_conjoin]
          have taken : other.Satisfies term :=
            (stable other agreement).trans decided
          simp [Valuation.SatisfiesAll, taken, Valuation.satisfies_bool]
      · next decided =>
          simp only [Option.some.injEq] at moved
          subst after
          refine ⟨_, List.mem_cons_of_mem _ List.mem_cons_self, rfl, valuation,
            .refl _ _ _, agrees, ?_⟩
          intro other agreement
          rw [Valuation.satisfies_conjoin]
          have notTaken : other.Satisfies term.negation :=
            (Valuation.satisfies_negation
              ((stable other agreement).trans decided)).mpr rfl
          simp [Valuation.SatisfiesAll, notTaken, Valuation.satisfies_bool]
      · simp at moved

end Leaves

end FlowWitness.Exploration
