import FlowWitness.Proofs.Graph.BuildScripts
import FlowWitness.Proofs.Graph.Resemblance
import Mathlib.Data.List.TakeWhile

/-!
# Steps, refused steps and the views of a built graph

A block step makes one new block.  A step is refused if it asks for an edge
with a foreign block, and then leaves the graph as it was, or with the edges of
a sequence up to its first bad pair.  So after any script the blocks are those
that the script created, the edges are those that it added, and each of them
joins two blocks of the graph.

A built graph shows its edges in four ways: out of a block in order, as
successors, as predecessors, and as the shape of a block.  Each is computed
from the list of edges on its own.  Here each is given by the edges that the
script added, loops and repeated edges included.
-/

namespace FlowWitness.Graph

open FlowWitness.Program

/-! ## The edges out of a block -/

/-- The edges that a shape stands for. -/
def Successors.edges : Successors → List (EdgeKind × BlockId)
  | .none => []
  | .unconditional next => [(.unconditional, next)]
  | .branch onTrue onFalse => [(.onTrue, onTrue), (.onFalse, onFalse)]

/--
The edges out of a block, in whatever order, make a shape: there are none, or
only an unconditional one, or one for each side of a branch.
-/
def WellShaped (out : List (EdgeKind × BlockId)) : Prop :=
  out = [] ∨ (∃ next, out = [(.unconditional, next)]) ∨
    ∃ onTrue onFalse, out.Perm [(.onTrue, onTrue), (.onFalse, onFalse)]

/-- Edges are shown by kind, and those of one kind by target. -/
def ShownBefore (first second : EdgeKind × BlockId) : Prop :=
  first.1.order < second.1.order ∨
    first.1 = second.1 ∧ first.2.index ≤ second.2.index

/-- There is a shape for the edges if and only if they make one. -/
theorem wellShaped_iff {out : List (EdgeKind × BlockId)} :
    WellShaped out ↔ ∃ shape : Successors, out.Perm shape.edges := by
  constructor
  · rintro (rfl | ⟨next, rfl⟩ | ⟨onTrue, onFalse, same⟩)
    · exact ⟨.none, .refl _⟩
    · exact ⟨.unconditional next, .refl _⟩
    · exact ⟨.branch onTrue onFalse, same⟩
  · rintro ⟨shape, same⟩
    cases shape with
    | none => exact .inl (List.perm_nil.mp same)
    | unconditional next =>
        exact .inr (.inl ⟨next, List.perm_singleton.mp same⟩)
    | branch onTrue onFalse => exact .inr (.inr ⟨onTrue, onFalse, same⟩)

theorem wellShaped_of_perm
    {first second : List (EdgeKind × BlockId)} (same : first.Perm second) :
    WellShaped first ↔ WellShaped second := by
  simp only [wellShaped_iff]
  exact exists_congr fun shape =>
    ⟨fun shaped => same.symm.trans shaped, fun shaped => same.trans shaped⟩

/-- The pairs of blocks that a step asks to join, in order. -/
def BuildStep.pairs : BuildStep → List (BlockId × BlockId)
  | .block _ => []
  | .edge source target _ => [(source, target)]
  | .branch source onTrue onFalse => [(source, onTrue), (source, onFalse)]
  | .sequence blocks => blocks.zip blocks.tail

namespace FlowGraph

/-- The edges out of a block among those of a list, as a caller sees them. -/
def leaving (graph : FlowGraph) (edges : List Edge) (block : BlockId) :
    List (EdgeKind × BlockId) :=
  (edges.filter (fun edge => graph.handle edge.source == block)).map
    (fun edge => (edge.kind, graph.handle edge.target))

/-- Both blocks of the pair are the graph's own. -/
def Owns (graph : FlowGraph) (pair : BlockId × BlockId) : Prop :=
  graph.contains pair.1 = true ∧ graph.contains pair.2 = true

/--
What a block step makes and answers: a new block with the operation, beside
those that there were.
-/
def Makes (graph : FlowGraph) (operation : Option Operation) :
    BuildReply × FlowGraph → Prop
  | (.added block, after) =>
    graph.contains block = false ∧ after.contains block = true ∧
      ∀ other, after.block? other =
        if other = block then some (.inner operation) else graph.block? other
  | _ => False

/-- Every edge joins two blocks of the graph. -/
def Joined (graph : FlowGraph) : Prop :=
  ∀ edge ∈ graph.edges,
    graph.Owns (graph.handle edge.source, graph.handle edge.target)

/--
What a refused step may leave behind: the graph as it was, and after a sequence
the edges of the pairs before the first bad one.  A block is never refused.
-/
def LeftBehind (graph : FlowGraph) : BuildStep → FlowGraph → Prop
  | .block _, _ => False
  | .edge _ _ _, after => after = graph
  | .branch _ _ _, after => after = graph
  | .sequence blocks, after => ∃ good bad rest,
      blocks.zip blocks.tail = good ++ bad :: rest ∧
        (∀ pair ∈ good, graph.Owns pair) ∧ ¬ graph.Owns bad ∧
        after = { graph with
          edges := graph.edges ++ good.map (fun pair =>
            ⟨pair.1.index, pair.2.index, .unconditional⟩) }

variable {graph : FlowGraph}

/-! ## New blocks -/

/-- A block step makes the block at the next place. -/
theorem makes_block (graph : FlowGraph) (operation : Option Operation) :
    graph.Makes operation (graph.perform (.block operation)) := by
  refine ⟨by simp [contains, handle], by simp [contains, handle, size], ?_⟩
  rintro ⟨owner, index⟩
  by_cases own : owner = graph.id
  · subst own
    -- The blocks before the new one are where they were.
    rcases index with _ | _ | place
    · simp [block?, contains, handle, size]
    · simp [block?, contains, handle, size]
    · rcases Nat.lt_trichotomy place graph.inner.length with
        before | rfl | after
      · simp [block?, contains, handle, size, before, Nat.ne_of_lt before,
          Nat.lt_succ_of_lt before]
      · simp [block?, contains, handle, size]
      · have later : ¬ place < graph.inner.length + 1 := by omega
        simp [block?, contains, handle, size, later, Nat.ne_of_gt after,
          Nat.not_lt_of_gt after]
  · simp [block?, contains, handle, own]

/-! ## Refused steps -/

theorem owns_iff {source target : BlockId} :
    graph.Owns (source, target) ↔
      (graph.contains source && graph.contains target) = true :=
  Bool.and_eq_true_iff.symm

/-- An edge is added, or refused with nothing added. -/
theorem addEdge_cases (graph : FlowGraph) (source target : BlockId)
    (kind : EdgeKind) :
    (graph.Owns (source, target) ∧
      graph.addEdge source target kind = (.ok (), { graph with
        edges := graph.edges ++ [⟨source.index, target.index, kind⟩] })) ∨
    (¬ graph.Owns (source, target) ∧
      ∃ fault, graph.addEdge source target kind = (.error fault, graph)) := by
  by_cases own : graph.Owns (source, target)
  · exact .inl ⟨own, addEdge_eq_ok graph kind own.1 own.2⟩
  · exact .inr ⟨own, addEdge_eq_error graph kind (mt owns_iff.mpr own)⟩

/-- A branch is added, or refused with nothing added. -/
theorem addBranch_cases (graph : FlowGraph) (source onTrue onFalse : BlockId) :
    ((graph.Owns (source, onTrue) ∧ graph.Owns (source, onFalse)) ∧
      (graph.addBranch source onTrue onFalse).1 = .ok ()) ∨
    (¬ (graph.Owns (source, onTrue) ∧ graph.Owns (source, onFalse)) ∧
      ∃ fault, graph.addBranch source onTrue onFalse =
        (.error fault, graph)) := by
  have both : (graph.Owns (source, onTrue) ∧ graph.Owns (source, onFalse)) ↔
      (graph.contains source && graph.contains onTrue &&
        graph.contains onFalse) = true := by
    simp only [Owns, Bool.and_eq_true]
    tauto
  by_cases own : graph.Owns (source, onTrue) ∧ graph.Owns (source, onFalse)
  · exact .inl ⟨own, by rw [addBranch_eq_ok graph (both.mp own)]⟩
  · exact .inr ⟨own, addBranch_eq_error graph (mt both.mpr own)⟩

/--
A sequence is added, or refused at its first bad pair with the edges before it
added.
-/
theorem addSequence_cases (graph : FlowGraph) (blocks : List BlockId) :
    ((∀ pair ∈ blocks.zip blocks.tail, graph.Owns pair) ∧
      (graph.addSequence blocks).1 = .ok ()) ∨
    ∃ good bad rest fault, blocks.zip blocks.tail = good ++ bad :: rest ∧
      (∀ pair ∈ good, graph.Owns pair) ∧ ¬ graph.Owns bad ∧
      graph.addSequence blocks = (.error fault, { graph with
        edges := graph.edges ++ good.map (fun pair =>
          ⟨pair.1.index, pair.2.index, .unconditional⟩) }) := by
  induction blocks generalizing graph with
  | nil => exact .inl ⟨by simp, rfl⟩
  | cons source rest induction =>
      cases rest with
      | nil => exact .inl ⟨by simp, rfl⟩
      | cons target rest =>
          rw [addSequence]
          rcases addEdge_cases graph source target .unconditional with
            ⟨own, added⟩ | ⟨foreign, fault, refused⟩
          · -- The pair is good, and a bad one can only be in the rest.
            rw [added]
            rcases induction { graph with edges := graph.edges ++
                [⟨source.index, target.index, .unconditional⟩] } with
              ⟨owned, done⟩ |
              ⟨good, bad, later, fault, pairs, owned, foreign, left⟩
            · exact .inl ⟨List.forall_mem_cons.mpr ⟨own, owned⟩, done⟩
            · refine .inr ⟨(source, target) :: good, bad, later, fault, ?_,
                List.forall_mem_cons.mpr ⟨own, owned⟩, foreign, ?_⟩
              · exact congrArg ((source, target) :: ·) pairs
              · simp only [left]
                simp
          · rw [refused]
            exact .inr ⟨[], (source, target), _, fault, rfl, by simp, foreign,
              by simp⟩

@[simp]
theorem replyTo_eq_refused_iff
    {result : Except GraphError Unit × FlowGraph} {fault : GraphError} :
    (replyTo result).1 = .refused fault ↔ result.1 = .error fault := by
  rcases result with ⟨_ | ⟨⟩, extended⟩ <;> simp [replyTo]

/-- A step is refused if and only if it asks to join a foreign block. -/
theorem refused_iff {step : BuildStep} :
    (∃ fault, (graph.perform step).1 = .refused fault) ↔
      ∃ pair ∈ step.pairs, ¬ graph.Owns pair := by
  cases step with
  | block operation => simp [perform, BuildStep.pairs]
  | edge source target kind =>
      rcases graph.addEdge_cases source target kind with
        ⟨own, added⟩ | ⟨foreign, fault, refused⟩
      · simp [perform, added, BuildStep.pairs, own]
      · simp [perform, refused, BuildStep.pairs, foreign]
  | branch source onTrue onFalse =>
      rcases graph.addBranch_cases source onTrue onFalse with
        ⟨own, added⟩ | ⟨foreign, fault, refused⟩
      · simp [perform, added, BuildStep.pairs, own]
      · have bad := not_and_or.mp foreign
        simpa [perform, refused, BuildStep.pairs, or_and_right, exists_or]
  | sequence blocks =>
      rcases graph.addSequence_cases blocks with
        ⟨own, added⟩ | ⟨good, bad, rest, fault, pairs, _, foreign, refused⟩
      · simpa [perform, added, BuildStep.pairs] using own
      · simp only [perform, replyTo_eq_refused_iff, refused, BuildStep.pairs]
        exact iff_of_true ⟨fault, rfl⟩ ⟨bad, by simp [pairs], foreign⟩

/-- A refused step leaves nothing behind but the start of a sequence. -/
theorem leftBehind_of_refused
    {step : BuildStep} {fault : GraphError}
    (refused : (graph.perform step).1 = .refused fault) :
    graph.LeftBehind step (graph.perform step).2 := by
  cases step with
  | block operation => simp [perform] at refused
  | edge source target kind =>
      rcases graph.addEdge_cases source target kind with
        ⟨_, added⟩ | ⟨_, _, left⟩
      · simp [perform, added] at refused
      · simp [perform, left, LeftBehind]
  | branch source onTrue onFalse =>
      rcases graph.addBranch_cases source onTrue onFalse with
        ⟨_, added⟩ | ⟨_, _, left⟩
      · simp [perform, added] at refused
      · simp [perform, left, LeftBehind]
  | sequence blocks =>
      rcases graph.addSequence_cases blocks with
        ⟨_, added⟩ | ⟨good, bad, rest, _, pairs, owned, foreign, left⟩
      · simp [perform, added] at refused
      · rw [perform, replyTo_snd, left]
        exact ⟨good, bad, rest, pairs, owned, foreign, rfl⟩

/-! ## Edges join blocks of the graph -/

theorem handle_index {block : BlockId} (own : graph.contains block = true) :
    graph.handle block.index = block := by
  rcases block with ⟨owner, index⟩
  simp only [contains, Bool.and_eq_true, beq_iff_eq] at own
  rw [handle, own.1]

theorem joined_iff :
    graph.Joined ↔ ∀ edge ∈ graph.edges,
      edge.source < graph.size ∧ edge.target < graph.size := by
  simp only [Joined, Owns, contains_handle]

/-- What a step adds joins blocks that the graph already has. -/
theorem addedBy_inside
    {step : BuildStep} {edge : Edge} (added : edge ∈ graph.addedBy step) :
    edge.source < graph.size ∧ edge.target < graph.size := by
  have inside : ∀ {block : BlockId}, graph.contains block = true →
      block.index < graph.size := by
    intro block own
    rw [← contains_handle, handle_index own]
    exact own
  cases step with
  | block operation => simp [addedBy] at added
  | edge source target kind =>
      rw [addedBy] at added
      split at added
      · next own =>
          simp only [Bool.and_eq_true] at own
          cases List.mem_singleton.mp added
          exact ⟨inside own.1, inside own.2⟩
      · simp at added
  | branch source onTrue onFalse =>
      rw [addedBy] at added
      split at added
      · next own =>
          simp only [Bool.and_eq_true] at own
          simp only [List.mem_cons, List.not_mem_nil, or_false] at added
          rcases added with rfl | rfl
          · exact ⟨inside own.1.1, inside own.1.2⟩
          · exact ⟨inside own.1.1, inside own.2⟩
      · simp at added
  | sequence blocks =>
      rcases List.mem_map.mp added with ⟨pair, taken, rfl⟩
      have own := List.mem_takeWhile_imp taken
      simp only [Bool.and_eq_true] at own
      exact ⟨inside own.1, inside own.2⟩

theorem Joined.perform (joined : graph.Joined) (step : BuildStep) :
    (graph.perform step).2.Joined := by
  rw [joined_iff] at joined ⊢
  have grows : graph.size ≤ (graph.perform step).2.size := by
    rw [perform_eq]
    simp [size]
  have edges : (graph.perform step).2.edges =
      graph.edges ++ graph.addedBy step := by
    rw [perform_eq]
  intro edge member
  rw [edges, List.mem_append] at member
  have before : edge.source < graph.size ∧ edge.target < graph.size :=
    member.elim (joined edge) addedBy_inside
  omega

theorem Joined.performAll (joined : graph.Joined) (steps : List BuildStep) :
    (graph.performAll steps).2.Joined := by
  induction steps generalizing graph with
  | nil => exact joined
  | cons step rest induction => exact induction (joined.perform step)

/-! ## The edges in order -/

/-- The edges out of a block are shown in order. -/
theorem pairwise_edgesFrom (block : BlockId) :
    (graph.edgesFrom block).Pairwise ShownBefore := by
  rw [edgesFrom]
  split
  · refine List.pairwise_map.mpr ((Edge.pairwise_sort _).imp ?_)
    intro first second before
    rcases Edge.notAfter_iff.mp before with kinds | ⟨kinds, targets⟩
    · exact .inl kinds
    · exact .inr ⟨EdgeKind.order_injective kinds, targets⟩
  · exact .nil

/-- The edges out of a block are shown with multiplicity. -/
theorem perm_edgesFrom (joined : graph.Joined) (block : BlockId) :
    (graph.edgesFrom block).Perm (graph.leaving graph.edges block) := by
  rw [edgesFrom, leaving]
  split
  · next own =>
      have leaves : ∀ edge : Edge, (graph.handle edge.source == block) =
          (edge.source == block.index) := by
        intro edge
        rw [← handle_index own, Bool.eq_iff_iff]
        simp [handle]
      simp only [leaves]
      exact (Edge.perm_sort _).map _
  · next foreign =>
      -- No edge starts at a block that is not the graph's own.
      rw [List.filter_eq_nil_iff.mpr]
      · exact .refl _
      · intro edge member leaves
        rw [beq_iff_eq] at leaves
        exact foreign (leaves ▸ (joined edge member).1)

/-! ## Predecessors -/

/-- Predecessors are the inverse of successors. -/
theorem mem_predecessors_iff
    (joined : graph.Joined) {origin block : BlockId} :
    origin ∈ graph.predecessors block ↔ block ∈ graph.successors origin := by
  constructor
  · exact leads_of_mem_predecessors
  · intro after
    rcases leads_iff.mp after with ⟨_, edge, member, _, rfl⟩
    exact mem_predecessors_of_successor after (joined edge member).2

/-- Predecessors come in order of creation, each once. -/
theorem pairwise_predecessors (block : BlockId) :
    (graph.predecessors block).Pairwise (fun first second =>
      first.index < second.index) := by
  have blocks : graph.blocks.Pairwise (fun first second =>
      first.index < second.index) :=
    List.pairwise_map.mpr List.pairwise_lt_range
  rw [predecessors]
  split
  · exact blocks.filter _
  · exact .nil

/-! ## Shapes -/

theorem targetsBy_of_perm
    {block : BlockId} {out : List (EdgeKind × BlockId)}
    (same : (graph.edgesFrom block).Perm out) (kind : EdgeKind) :
    (graph.targetsBy block kind).Perm
      ((out.filter (fun edge => edge.1 == kind)).map Prod.snd) :=
  (same.filter _).map _

/-- The edges out of a block are its targets of each kind. -/
theorem perm_targetsBy (graph : FlowGraph) (block : BlockId) :
    (graph.edgesFrom block).Perm
      ((graph.targetsBy block .onTrue).map (Prod.mk .onTrue) ++
        ((graph.targetsBy block .onFalse).map (Prod.mk .onFalse) ++
          (graph.targetsBy block .unconditional).map
            (Prod.mk .unconditional))) := by
  have labelled : ∀ kind, (graph.targetsBy block kind).map (Prod.mk kind) =
      (graph.edgesFrom block).filter (fun edge => edge.1 == kind) := by
    intro kind
    rw [targetsBy, List.map_map]
    refine (List.map_congr_left ?_).trans (List.map_id _)
    rintro ⟨other, target⟩ member
    have same : other = kind := by
      simpa using (List.mem_filter.mp member).2
    rw [Function.comp_apply, same]
    rfl
  rw [labelled, labelled, labelled]
  exact (perm_by_kind (graph.edgesFrom block)).symm

/-- A block has a shape if and only if its edges are those of the shape. -/
theorem successorShape_eq_ok_iff {block : BlockId} {shape : Successors} :
    graph.successorShape block = .ok shape ↔
      graph.contains block = true ∧
        (graph.edgesFrom block).Perm shape.edges := by
  constructor
  · intro shaped
    have kinds := graph.perm_targetsBy block
    rw [successorShape] at shaped
    split at shaped
    · next own =>
        refine ⟨own, ?_⟩
        split at shaped <;>
          simp only [Except.ok.injEq, reduceCtorEq] at shaped <;>
          subst shape
        · next onTrue onFalse none =>
            rwa [onTrue, onFalse, none] at kinds
        · next onTrue onFalse only =>
            rwa [onTrue, onFalse, only] at kinds
        · next onTrue onFalse none =>
            rwa [onTrue, onFalse, none] at kinds
    · simp at shaped
  · rintro ⟨own, same⟩
    have targets := targetsBy_of_perm same
    rw [successorShape, if_pos own]
    cases shape with
    | none =>
        rw [List.perm_nil.mp (targets .onTrue),
          List.perm_nil.mp (targets .onFalse),
          List.perm_nil.mp (targets .unconditional)]
    | unconditional next =>
        rw [List.perm_nil.mp (targets .onTrue),
          List.perm_nil.mp (targets .onFalse),
          List.perm_singleton.mp (targets .unconditional)]
    | branch onTrue onFalse =>
        rw [List.perm_singleton.mp (targets .onTrue),
          List.perm_singleton.mp (targets .onFalse),
          List.perm_nil.mp (targets .unconditional)]

/-- A block has a shape if and only if its edges make one. -/
theorem successorShape_ok_iff {block : BlockId} :
    (∃ shape, graph.successorShape block = .ok shape) ↔
      graph.contains block = true ∧ WellShaped (graph.edgesFrom block) := by
  simp only [successorShape_eq_ok_iff, exists_and_left, wellShaped_iff]

/-- A graph is valid if and only if every block has a shape. -/
theorem validate_eq_ok_iff :
    graph.validate = .ok () ↔ ∀ block ∈ graph.blocks,
      ∃ shape, graph.successorShape block = .ok shape := by
  have faults : graph.validate = .ok () ↔ graph.firstFault? = none := by
    rw [validate]
    split <;> simp_all
  rw [faults, firstFault?, List.findSome?_eq_none_iff]
  refine forall₂_congr fun block _ => ?_
  split <;> simp_all

/-! ## Built graphs -/

theorem joined_built (id : Nat) (parameters : List Variable)
    (returns : List Expression) (steps : List BuildStep) :
    (built id parameters returns steps).Joined :=
  Joined.performAll (by simp [Joined, start]) steps

/--
Building.  After any script the inner blocks are those that it created, and a
further block step makes one new block, whose handle it answers.  A step is
refused if and only if it asks for an edge with a foreign block.  It then
leaves the graph as it was, or with the edges before the first bad pair of a
sequence, and every edge joins two blocks of the graph.

The edges out of a block are shown in order, and they are those that the script
added, with multiplicity.  Predecessors are the inverse of successors, in order
of creation and each once.  A block has a shape if and only if the edges added
out of it make one, and a graph is valid if and only if those of every block
do.
-/
theorem scripts_build_what_they_add (id : Nat) (parameters : List Variable)
    (returns : List Expression) (steps : List BuildStep) :
    let graph := built id parameters returns steps
    let added := graph.leaving ((start id parameters returns).addedEdges steps)
    graph.inner = createdBlocks steps ∧
    (∀ operation, graph.Makes operation (graph.perform (.block operation))) ∧
    (∀ step, (∃ fault, (graph.perform step).1 = .refused fault) ↔
      ∃ pair ∈ step.pairs, ¬ graph.Owns pair) ∧
    (∀ step fault, (graph.perform step).1 = .refused fault →
      graph.LeftBehind step (graph.perform step).2) ∧
    graph.Joined ∧
    (∀ block, (graph.edgesFrom block).Pairwise ShownBefore ∧
      (graph.edgesFrom block).Perm (added block)) ∧
    (∀ origin block,
      origin ∈ graph.predecessors block ↔ block ∈ graph.successors origin) ∧
    (∀ block, (graph.predecessors block).Pairwise (fun first second =>
      first.index < second.index)) ∧
    (∀ block, (∃ shape, graph.successorShape block = .ok shape) ↔
      graph.contains block = true ∧ WellShaped (added block)) ∧
    (graph.validate = .ok () ↔
      ∀ block ∈ graph.blocks, WellShaped (added block)) := by
  intro graph added
  have joined : graph.Joined := joined_built id parameters returns steps
  have whole : graph = ⟨id, parameters, returns, createdBlocks steps,
      (start id parameters returns).addedEdges steps⟩ :=
    built_eq id parameters returns steps
  have shown : ∀ block, (graph.edgesFrom block).Perm (added block) := by
    intro block
    have same := perm_edgesFrom joined block
    rwa [show graph.edges = _ from congrArg FlowGraph.edges whole] at same
  have shaped : ∀ block, (∃ shape, graph.successorShape block = .ok shape) ↔
      graph.contains block = true ∧ WellShaped (added block) := by
    intro block
    rw [successorShape_ok_iff, wellShaped_of_perm (shown block)]
  refine ⟨congrArg FlowGraph.inner whole, graph.makes_block,
    fun _ => refused_iff, fun _ _ => leftBehind_of_refused, joined,
    fun block => ⟨pairwise_edgesFrom block, shown block⟩,
    fun _ _ => mem_predecessors_iff joined, pairwise_predecessors, shaped, ?_⟩
  rw [validate_eq_ok_iff]
  refine forall₂_congr fun block member => ?_
  rw [shaped, and_iff_right (mem_blocks.mp member)]

-- A sequence with a foreign third block, then a loop that is added twice.
example :
    let graph := built 4 [] [] [.block none,
      .sequence [⟨4, 0⟩, ⟨4, 2⟩, ⟨5, 1⟩, ⟨4, 1⟩],
      .edge ⟨4, 2⟩ ⟨4, 2⟩ .onTrue, .branch ⟨4, 2⟩ ⟨4, 2⟩ ⟨4, 3⟩,
      .branch ⟨4, 2⟩ ⟨4, 2⟩ ⟨4, 1⟩]
    graph.edgesFrom ⟨4, 0⟩ = [(.unconditional, ⟨4, 2⟩)] ∧
    graph.edgesFrom ⟨4, 2⟩ =
      [(.onTrue, ⟨4, 2⟩), (.onTrue, ⟨4, 2⟩), (.onFalse, ⟨4, 1⟩)] ∧
    graph.predecessors ⟨4, 2⟩ = [⟨4, 0⟩, ⟨4, 2⟩] ∧
    graph.validate = .error (.duplicateSuccessor ⟨4, 2⟩ .onTrue) := by
  decide

end FlowGraph

end FlowWitness.Graph
