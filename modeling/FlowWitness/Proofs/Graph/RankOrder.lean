import FlowWitness.Proofs.Graph.Paths

/-!
# The order of ranks

Ranks number the retained blocks that the entry leads to from zero on, each
once and without a gap, and the entry first.  Whatever cycles there are, a
block is entered from one of smaller rank: the walk leaves a block after all
that it met from there, and what is left last comes first.  Where the ranked
blocks form no cycle, all edges between them go up.
-/

namespace FlowWitness.Graph

namespace FlowGraph

variable {graph : FlowGraph} {retained targets : List BlockId}

/-! ## Blocks are left in order of descent -/

/-- Each block of the list is a root, or entered from a block before it. -/
def Descends (graph : FlowGraph) (retained : List BlockId)
    (Root : BlockId → Prop) (blocks : List BlockId) : Prop :=
  ∀ before block after, blocks = before ++ block :: after →
    Root block ∨ ∃ parent ∈ before, graph.WalksTo retained parent block

theorem descends_nil {Root : BlockId → Prop} :
    graph.Descends retained Root [] := by
  intro before block after split
  simp at split

/-- What descends from roots of its own may stand behind anything. -/
theorem Descends.append
    {Root : BlockId → Prop} {early late : List BlockId}
    (first : graph.Descends retained Root early)
    (second : graph.Descends retained Root late) :
    graph.Descends retained Root (early ++ late) := by
  intro before block after split
  rcases List.append_eq_append_iff.mp split with
    ⟨middle, rfl, lateSplit⟩ | ⟨middle, earlySplit, afterSplit⟩
  · rcases second middle block after lateSplit with root | ⟨parent, here, edge⟩
    · exact Or.inl root
    · exact Or.inr ⟨parent, List.mem_append_right _ here, edge⟩
  · cases middle with
    | nil =>
        rcases second [] block after afterSplit.symm with root | ⟨_, none, _⟩
        · exact Or.inl root
        · simp at none
    | cons other middle =>
        rw [List.cons_append, List.cons.injEq] at afterSplit
        rcases afterSplit with ⟨rfl, rfl⟩
        exact first before block middle earlySplit

theorem Descends.mono
    {Root Wider : BlockId → Prop} {blocks : List BlockId}
    (descends : graph.Descends retained Root blocks)
    (wider : ∀ block, Root block → Wider block) :
    graph.Descends retained Wider blocks := by
  intro before block after split
  rcases descends before block after split with root | parent
  · exact Or.inl (wider block root)
  · exact Or.inr parent

/-- Put in front, a block is the parent of those that it leads to. -/
theorem Descends.cons
    {block : BlockId} {blocks : List BlockId}
    (descends : graph.Descends retained (graph.WalksTo retained block)
      blocks) :
    graph.Descends retained (fun other => other = block) (block :: blocks) := by
  intro before other after split
  cases before with
  | nil =>
      rw [List.nil_append, List.cons.injEq] at split
      exact Or.inl split.1.symm
  | cons first before =>
      rw [List.cons_append, List.cons.injEq] at split
      rcases split with ⟨rfl, split⟩
      refine Or.inr ?_
      rcases descends before other after split with
        edge | ⟨parent, here, edge⟩
      · exact ⟨block, List.mem_cons_self, edge⟩
      · exact ⟨parent, List.mem_cons_of_mem _ here, edge⟩

/-- What a walk from a block leaves descends from the block. -/
theorem descends_walkFrom (depth : Nat) (block : BlockId) (progress : Walk) :
    ∃ new, (graph.walkFrom retained depth block progress).ranked =
        new ++ progress.ranked ∧
      graph.Descends retained (fun other => other = block) new := by
  induction depth generalizing block progress with
  | zero => exact ⟨[], rfl, descends_nil⟩
  | succ depth induction =>
      have through : ∀ (blocks : List BlockId) (soFar : Walk),
          (∀ next ∈ blocks, graph.WalksTo retained block next) →
          ∃ new, (blocks.foldl (fun soFar next =>
              graph.walkFrom retained depth next soFar) soFar).ranked =
                new ++ soFar.ranked ∧
            graph.Descends retained (graph.WalksTo retained block) new := by
        intro blocks
        induction blocks with
        | nil => exact fun soFar _ => ⟨[], rfl, descends_nil⟩
        | cons next rest later =>
            intro soFar steps
            rw [List.forall_mem_cons] at steps
            rcases induction next soFar with ⟨early, left, descends⟩
            rcases later (graph.walkFrom retained depth next soFar) steps.2 with
              ⟨late, further, onward⟩
            refine ⟨late ++ early, ?_, onward.append (descends.mono ?_)⟩
            · rw [List.foldl_cons, further, left, List.append_assoc]
            · rintro other rfl
              exact steps.1
      rw [walkFrom]
      split
      · exact ⟨[], rfl, descends_nil⟩
      · rcases through (graph.retainedSuccessors retained block)
          { progress with met := block :: progress.met }
          (fun _ step => step) with ⟨new, left, descends⟩
        exact ⟨block :: new, congrArg (block :: ·) left, descends.cons⟩

theorem descends_rankedBlocks :
    graph.Descends retained (fun other => other = graph.entry)
      (graph.rankedBlocks retained) := by
  rw [rankedBlocks]
  split
  · rcases descends_walkFrom graph.size graph.entry ⟨[], []⟩ with
      ⟨new, left, descends⟩
    rwa [left, List.append_nil]
  · exact descends_nil

/-- The block that a walk starts from is left last. -/
theorem head?_walkFrom
    {depth : Nat} {block : BlockId} {progress : Walk}
    (fresh : block ∉ progress.met) :
    (graph.walkFrom retained (depth + 1) block progress).ranked.head? =
      some block := by
  rw [walkFrom, if_neg (by simpa using fresh)]
  rfl

theorem head?_rankedBlocks (entered : graph.entry ∈ retained) :
    (graph.rankedBlocks retained).head? = some graph.entry := by
  rw [rankedBlocks_eq entered]
  exact head?_walkFrom (by simp)

end FlowGraph

/-! ## Ranks are places -/

/-- In a list without repetition, the rank of a block is its place. -/
theorem rankOf?_eq_some_iff
    {ranked : List BlockId} (once : ranked.Nodup)
    {block : BlockId} {rank : Nat} :
    rankOf? ranked block = some rank ↔ ranked[rank]? = some block := by
  refine ⟨FlowGraph.getElem?_of_rankOf?, ?_⟩
  intro found
  rcases List.getElem?_eq_some_iff.mp found with ⟨inside, rfl⟩
  rw [rankOf?, List.findIdx?_eq_some_iff_getElem]
  refine ⟨inside, by simp, ?_⟩
  intro earlier before same
  rw [beq_iff_eq, once.getElem_inj_iff] at same
  exact Nat.ne_of_lt before same

namespace FlowGraph

variable {graph : FlowGraph} {retained targets : List BlockId}

theorem exists_rankOf?_iff {block : BlockId} :
    (∃ rank, rankOf? (graph.rankedBlocks retained) block = some rank) ↔
      block ∈ graph.rankedBlocks retained := by
  simp only [rankOf?_eq_some_iff nodup_rankedBlocks, List.mem_iff_getElem?]

/-- Every rank below the number of ranked blocks belongs to one of them. -/
theorem existsUnique_rankOf?
    {rank : Nat} (inside : rank < (graph.rankedBlocks retained).length) :
    ∃! block, rankOf? (graph.rankedBlocks retained) block = some rank := by
  simp only [rankOf?_eq_some_iff nodup_rankedBlocks,
    List.getElem?_eq_getElem inside]
  exact ⟨_, rfl, fun _ same => (Option.some.inj same).symm⟩

theorem rankOf?_entry (entered : graph.entry ∈ retained) :
    rankOf? (graph.rankedBlocks retained) graph.entry = some 0 := by
  rw [rankOf?_eq_some_iff nodup_rankedBlocks, ← List.head?_eq_getElem?]
  exact head?_rankedBlocks entered

/-- A block other than the entry is entered from one of smaller rank. -/
theorem exists_parent_of_rankOf?
    {block : BlockId} {rank : Nat}
    (placed : rankOf? (graph.rankedBlocks retained) block = some rank)
    (inner : block ≠ graph.entry) :
    ∃ parent before, graph.WalksTo retained parent block ∧
      rankOf? (graph.rankedBlocks retained) parent = some before ∧
      before < rank := by
  rw [rankOf?_eq_some_iff nodup_rankedBlocks] at placed
  rcases List.getElem?_eq_some_iff.mp placed with ⟨inside, rfl⟩
  have split := (List.take_append_drop rank (graph.rankedBlocks retained)).symm
  rw [List.drop_eq_getElem_cons inside] at split
  rcases descends_rankedBlocks _ _ _ split with root | ⟨parent, earlier, edge⟩
  · exact absurd root inner
  · rcases List.mem_take_iff_getElem.mp earlier with ⟨before, bound, rfl⟩
    rw [Nat.lt_min] at bound
    refine ⟨_, before, edge, ?_, bound.1⟩
    rw [rankOf?_eq_some_iff nodup_rankedBlocks,
      List.getElem?_eq_getElem bound.2]

/-! ## What is ranked -/

/-- The ranked blocks are the retained ones that the entry leads to. -/
theorem mem_rankedBlocks_iff_reached
    (entered : graph.entry ∈ graph.blocksReaching targets) {block : BlockId} :
    block ∈ graph.rankedBlocks (graph.blocksReaching targets) ↔
      block ∈ graph.blocksReaching targets ∧
        Relation.ReflTransGen graph.Leads graph.entry block := by
  constructor
  · intro ranked
    have path := path_of_mem_rankedBlocks ranked
    exact ⟨mem_of_path entered path, (onRoute_of_path entered path).entered⟩
  · rintro ⟨retains, path⟩
    have kept : ∀ other ∈ graph.blocksReaching targets,
        other ∈ graph.blocks := blocksReaching_subset targets
    induction path with
    | refl => exact entry_mem_rankedBlocks kept entered
    | tail _ edge earlier =>
        have before := predecessor_mem_blocksReaching retains
          (mem_predecessors_of_successor edge (mem_blocks.mp (kept _ retains)))
        exact successor_mem_rankedBlocks kept (earlier before) edge retains

/-- An edge between ranked blocks. -/
def RankedEdge (graph : FlowGraph) (targets : List BlockId)
    (first second : BlockId) : Prop :=
  first ∈ graph.rankedBlocks (graph.blocksReaching targets) ∧
    second ∈ graph.rankedBlocks (graph.blocksReaching targets) ∧
      graph.Leads first second

/--
Ranks as a numbering of the retained blocks that the entry leads to.
-/
structure OrdersRoutes (graph : FlowGraph) (targets : List BlockId)
    (rank : BlockId → Option Nat) (count : Nat) : Prop where
  ranked : ∀ block, (∃ place, rank block = some place) ↔
    block ∈ graph.blocksReaching targets ∧
      Relation.ReflTransGen graph.Leads graph.entry block
  below : ∀ block place, rank block = some place → place < count
  onto : ∀ place < count, ∃! block, rank block = some place
  first : rank graph.entry = some 0
  entered : ∀ block place, rank block = some place → block ≠ graph.entry →
    ∃ origin ∈ graph.predecessors block, ∃ earlier,
      rank origin = some earlier ∧ earlier < place
  rises : (∀ block,
      ¬ Relation.TransGen (graph.RankedEdge targets) block block) →
    ∀ first second, graph.Leads first second → ∀ lower upper,
      rank first = some lower → rank second = some upper → lower < upper

/--
The ranks number the retained blocks that the entry leads to, from zero at the
entry; a block has a predecessor of smaller rank, and all edges go up if there
is no cycle.  Nothing is ranked if the entry is not retained.
-/
theorem ranks_order_routes (graph : FlowGraph) (targets : List BlockId) :
    (graph.entry ∈ graph.blocksReaching targets →
      graph.OrdersRoutes targets
        (rankOf? (graph.rankedBlocks (graph.blocksReaching targets)))
        (graph.rankedBlocks (graph.blocksReaching targets)).length) ∧
    (graph.entry ∉ graph.blocksReaching targets →
      graph.rankedBlocks (graph.blocksReaching targets) = []) := by
  have kept : ∀ block ∈ graph.blocksReaching targets, block ∈ graph.blocks :=
    blocksReaching_subset targets
  constructor
  · intro entered
    constructor
    case ranked =>
      intro block
      rw [exists_rankOf?_iff, mem_rankedBlocks_iff_reached entered]
    case below =>
      intro block place placed
      exact (List.getElem?_eq_some_iff.mp (getElem?_of_rankOf? placed)).1
    case onto =>
      exact fun place => existsUnique_rankOf?
    case first => exact rankOf?_entry entered
    case entered =>
      intro block place placed inner
      rcases exists_parent_of_rankOf? placed inner with
        ⟨origin, earlier, step, parent, lower⟩
      rcases walksTo_iff.mp step with ⟨edge, retains⟩
      exact ⟨origin, mem_predecessors_of_successor edge
        (mem_blocks.mp (kept block retains)), earlier, parent, lower⟩
    case rises =>
      intro acyclic first second edge lower upper low high
      have ranked := (mem_rankedBlocks_iff_reached entered).mp
        (exists_rankOf?_iff.mp ⟨upper, high⟩)
      refine rank_lt_of_walksTo kept ?_
        (walksTo_iff.mpr ⟨edge, ranked.1⟩) low high
      intro block path cycle
      have ranks : ∀ other, Relation.ReflTransGen
          (graph.WalksTo (graph.blocksReaching targets)) graph.entry other →
          other ∈ graph.rankedBlocks (graph.blocksReaching targets) :=
        fun other reached => (mem_rankedBlocks_iff_reached entered).mpr
          ⟨mem_of_path entered reached, (onRoute_of_path entered reached).entered⟩
      exact acyclic block (transGen_of_walk ranks path cycle)
  · intro pruned
    rw [rankedBlocks, if_neg (by simpa using pruned)]

/--
A loop of two blocks with a double edge back and an edge to itself, from which
the exit can be reached, and a block from which it cannot.
-/
def detour : FlowGraph where
  id := 0
  parameters := []
  returns := []
  inner := [none, none, none]
  edges := [⟨0, 3, .unconditional⟩, ⟨3, 2, .onTrue⟩, ⟨3, 4, .onFalse⟩,
    ⟨2, 3, .onTrue⟩, ⟨2, 3, .onFalse⟩, ⟨2, 2, .unconditional⟩,
    ⟨3, 1, .unconditional⟩]

/-- The four blocks on the way are ranked, whatever the loop. -/
theorem detour_ranks_order_routes :
    detour.rankedBlocks (detour.blocksReaching [detour.exit]) =
        [detour.entry, detour.handle 3, detour.handle 2, detour.exit] ∧
      detour.OrdersRoutes [detour.exit]
        (rankOf? [detour.entry, detour.handle 3, detour.handle 2, detour.exit])
        4 := by
  have ranked : detour.rankedBlocks (detour.blocksReaching [detour.exit]) =
      [detour.entry, detour.handle 3, detour.handle 2, detour.exit] := by
    decide
  have ordered := (ranks_order_routes detour [detour.exit]).1 (by decide)
  rw [ranked] at ordered
  exact ⟨ranked, ordered⟩

end FlowGraph

end FlowWitness.Graph
