import FlowWitness.Graph.Builder

/-!
# What a build script makes

A script creates the blocks of its block steps, one after another, and adds
the edges of those steps that are not refused.  Whether a step is refused
depends on the blocks there are by then, and on nothing else, so the graph at
the end of a script is given by the two lists: the blocks created, and the
edges added.
-/

namespace FlowWitness.Graph

open FlowWitness.Program

/-- What the blocks do that a script creates, in order. -/
def createdBlocks (steps : List BuildStep) : List (Option Operation) :=
  steps.filterMap (fun step =>
    match step with
    | .block operation => some operation
    | _ => none)

namespace FlowGraph

/--
The edges that a build step adds: none if it is refused, except that a
sequence adds those before the first pair with a foreign handle.
-/
def addedBy (graph : FlowGraph) : BuildStep → List Edge
  | .block _ => []
  | .edge source target kind =>
    if graph.contains source && graph.contains target then
      [⟨source.index, target.index, kind⟩]
    else []
  | .branch source onTrue onFalse =>
    if graph.contains source && graph.contains onTrue &&
        graph.contains onFalse then
      [⟨source.index, onTrue.index, .onTrue⟩,
        ⟨source.index, onFalse.index, .onFalse⟩]
    else []
  | .sequence blocks =>
    ((blocks.zip blocks.tail).takeWhile (fun pair =>
      graph.contains pair.1 && graph.contains pair.2)).map (fun pair =>
        ⟨pair.1.index, pair.2.index, .unconditional⟩)

/-- The edges that a script adds, in order. -/
def addedEdges (graph : FlowGraph) : List BuildStep → List Edge
  | [] => []
  | step :: rest =>
    graph.addedBy step ++ (graph.perform step).2.addedEdges rest

variable (graph : FlowGraph)

/-! ## One step -/

theorem placeOf_eq_ok {block : BlockId} (own : graph.contains block = true) :
    graph.placeOf block = .ok block.index := by
  rw [placeOf, if_pos own]

theorem placeOf_eq_error
    {block : BlockId} (foreign : ¬ graph.contains block = true) :
    graph.placeOf block = .error (.unknownBlock block) := by
  rw [placeOf, if_neg foreign]

/-- An edge is added if both of its blocks are the graph's own. -/
theorem addEdge_eq_ok
    {source target : BlockId} (kind : EdgeKind)
    (sourceOwn : graph.contains source = true)
    (targetOwn : graph.contains target = true) :
    graph.addEdge source target kind = (.ok (), { graph with
      edges := graph.edges ++ [⟨source.index, target.index, kind⟩] }) := by
  rw [addEdge, placeOf_eq_ok graph sourceOwn, placeOf_eq_ok graph targetOwn]

/-- It is refused otherwise, for a block that is not, before it is added. -/
theorem addEdge_eq_error
    {source target : BlockId} (kind : EdgeKind)
    (foreign : ¬ (graph.contains source && graph.contains target) = true) :
    ∃ fault, graph.addEdge source target kind = (.error fault, graph) := by
  by_cases sourceOwn : graph.contains source = true
  · have targetForeign : ¬ graph.contains target = true := by
      simpa [sourceOwn] using foreign
    rw [addEdge, placeOf_eq_ok graph sourceOwn,
      placeOf_eq_error graph targetForeign]
    exact ⟨_, rfl⟩
  · rw [addEdge, placeOf_eq_error graph sourceOwn]
    exact ⟨_, rfl⟩

/-- Blocks pass the check if and only if all are the graph's own. -/
theorem checkAll_eq_ok_iff {blocks : List BlockId} :
    graph.checkAll blocks = .ok () ↔
      ∀ block ∈ blocks, graph.contains block = true := by
  induction blocks with
  | nil => simp [checkAll]
  | cons block rest induction =>
      by_cases own : graph.contains block = true
      · rw [checkAll, placeOf_eq_ok graph own]
        simp [induction, own]
      · rw [checkAll, placeOf_eq_error graph own]
        simp [own]

/-- A branch adds both of its edges if all of its blocks pass the check. -/
theorem addBranch_eq_ok
    {source onTrue onFalse : BlockId}
    (own : (graph.contains source && graph.contains onTrue &&
      graph.contains onFalse) = true) :
    graph.addBranch source onTrue onFalse = (.ok (), { graph with
      edges := graph.edges ++ [⟨source.index, onTrue.index, .onTrue⟩,
        ⟨source.index, onFalse.index, .onFalse⟩] }) := by
  simp only [Bool.and_eq_true] at own
  rcases own with ⟨⟨sourceOwn, trueOwn⟩, falseOwn⟩
  have passed : graph.checkAll [source, onTrue, onFalse] = .ok () := by
    simp [checkAll_eq_ok_iff, sourceOwn, trueOwn, falseOwn]
  have second := addEdge_eq_ok { graph with
    edges := graph.edges ++ [⟨source.index, onTrue.index, .onTrue⟩] }
    .onFalse sourceOwn falseOwn
  rw [addBranch, passed]
  simp only [addEdge_eq_ok graph .onTrue sourceOwn trueOwn, second,
    List.append_assoc, List.cons_append, List.nil_append]

/-- It adds neither otherwise: the check comes before the first of them. -/
theorem addBranch_eq_error
    {source onTrue onFalse : BlockId}
    (foreign : ¬ (graph.contains source && graph.contains onTrue &&
      graph.contains onFalse) = true) :
    ∃ fault, graph.addBranch source onTrue onFalse =
      (.error fault, graph) := by
  rw [addBranch]
  rcases checked : graph.checkAll [source, onTrue, onFalse] with fault | ⟨⟩
  · exact ⟨fault, rfl⟩
  · have own := (checkAll_eq_ok_iff graph).mp checked
    refine absurd ?_ foreign
    simpa [and_assoc] using own

theorem addedBy_withEdges (edges : List Edge) (step : BuildStep) :
    { graph with edges := edges }.addedBy step = graph.addedBy step := by
  cases step <;> rfl

theorem addSequence_eq (blocks : List BlockId) :
    (graph.addSequence blocks).2 = { graph with
      edges := graph.edges ++ graph.addedBy (.sequence blocks) } := by
  induction blocks generalizing graph with
  | nil => simp [addSequence, addedBy]
  | cons source rest induction =>
      cases rest with
      | nil => simp [addSequence, addedBy]
      | cons target rest =>
          by_cases own : (graph.contains source && graph.contains target) = true
          · have both := Bool.and_eq_true_iff.mp own
            have head : graph.addedBy (.sequence (source :: target :: rest)) =
                ⟨source.index, target.index, .unconditional⟩ ::
                  graph.addedBy (.sequence (target :: rest)) := by
              simp [addedBy, own]
            rw [addSequence, addEdge_eq_ok graph .unconditional both.1 both.2]
            simp only
            rw [induction, head, addedBy_withEdges, List.append_assoc]
            rfl
          · rcases addEdge_eq_error graph .unconditional own with
              ⟨fault, refused⟩
            rw [addSequence, refused]
            simp [addedBy, own]

@[simp]
theorem replyTo_snd (result : Except GraphError Unit × FlowGraph) :
    (replyTo result).2 = result.2 := by
  rcases result with ⟨fault | ⟨⟩, extended⟩ <;> rfl

/-- A step adds what it adds: a block, or edges, or nothing. -/
theorem perform_eq (step : BuildStep) :
    (graph.perform step).2 = { graph with
      inner := graph.inner ++ createdBlocks [step]
      edges := graph.edges ++ graph.addedBy step } := by
  cases step with
  | block operation => simp [perform, addBlock, addedBy, createdBlocks]
  | edge source target kind =>
      by_cases own : (graph.contains source && graph.contains target) = true
      · have both := Bool.and_eq_true_iff.mp own
        rw [perform, addEdge_eq_ok graph kind both.1 both.2]
        simp [addedBy, own, createdBlocks]
      · rcases addEdge_eq_error graph kind own with ⟨fault, refused⟩
        rw [perform, refused]
        simp [addedBy, own, createdBlocks]
  | branch source onTrue onFalse =>
      by_cases own : (graph.contains source && graph.contains onTrue &&
          graph.contains onFalse) = true
      · rw [perform, addBranch_eq_ok graph own]
        simp [addedBy, own, createdBlocks]
      · rcases addBranch_eq_error graph own with ⟨fault, refused⟩
        rw [perform, refused]
        simp [addedBy, own, createdBlocks]
  | sequence blocks =>
      rw [perform, replyTo_snd, addSequence_eq]
      simp [createdBlocks]

/-! ## Whole scripts -/

/-- At the end of a script the graph has its blocks and its edges. -/
theorem performAll_eq (steps : List BuildStep) :
    (graph.performAll steps).2 = { graph with
      inner := graph.inner ++ createdBlocks steps
      edges := graph.edges ++ graph.addedEdges steps } := by
  induction steps generalizing graph with
  | nil => simp [performAll, createdBlocks, addedEdges]
  | cons step rest induction =>
      have created : createdBlocks (step :: rest) =
          createdBlocks [step] ++ createdBlocks rest := by
        simp [createdBlocks, ← List.filterMap_append]
      rw [performAll, addedEdges, created]
      simp only
      rw [induction, perform_eq]
      simp

/-- The graph that a script builds from nothing but entry and exit. -/
def built (id : Nat) (parameters : List Variable) (returns : List Expression)
    (steps : List BuildStep) : FlowGraph :=
  ((start id parameters returns).performAll steps).2

theorem built_eq (id : Nat) (parameters : List Variable)
    (returns : List Expression) (steps : List BuildStep) :
    built id parameters returns steps =
      ⟨id, parameters, returns, createdBlocks steps,
        (start id parameters returns).addedEdges steps⟩ := by
  rw [built, performAll_eq]
  simp [start]

end FlowGraph

end FlowWitness.Graph
