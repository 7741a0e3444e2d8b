import FlowWitness.Proofs.Graph.Ranking
import Mathlib.Logic.Relation

/-!
# Paths of a graph

Pruning and ranking against the paths of the graph, with the conditions of its
edges ignored.  The retained blocks are those with a path to a target, and a
ranked block also has one from the entry, so the ranked blocks all lie on a
route from the entry to a target.

Whether these blocks form a cycle is a question about the edges alone.  A
numbering that every edge raises answers it.
-/

namespace FlowWitness.Graph

/-- The blocks that a shape names. -/
def Successors.targets : Successors → List BlockId
  | .none => []
  | .unconditional next => [next]
  | .branch onTrue onFalse => [onTrue, onFalse]

namespace FlowGraph

variable {graph : FlowGraph} {retained targets : List BlockId}

/-- An edge goes from the first block to the second. -/
def Leads (graph : FlowGraph) (first second : BlockId) : Prop :=
  second ∈ graph.successors first

/-- The block lies on a path from the entry to a target. -/
structure OnRoute (graph : FlowGraph) (targets : List BlockId)
    (block : BlockId) : Prop where
  entered : Relation.ReflTransGen graph.Leads graph.entry block
  leads : ∃ target ∈ targets, Relation.ReflTransGen graph.Leads block target

/-- No blocks between the entry and the targets form a cycle. -/
def AcyclicTowards (graph : FlowGraph) (targets : List BlockId) : Prop :=
  ∀ block, ¬ Relation.TransGen (fun first second =>
    graph.OnRoute targets first ∧ graph.OnRoute targets second ∧
      graph.Leads first second) block block

/-! ## Edges -/

theorem leads_iff {first second : BlockId} :
    graph.Leads first second ↔ graph.contains first = true ∧
      ∃ edge ∈ graph.edges, edge.source = first.index ∧
        graph.handle edge.target = second := by
  simp only [Leads, successors, edgesFrom]
  split
  · next contained =>
      simp only [List.map_map, List.mem_map, mem_sort, List.mem_filter,
        beq_iff_eq, Function.comp_apply, and_assoc, contained, true_and]
  · next foreign => simp [foreign]

theorem perm_by_kind {Target : Type} (edges : List (EdgeKind × Target)) :
    (edges.filter (fun edge => edge.1 == .onTrue) ++
      (edges.filter (fun edge => edge.1 == .onFalse) ++
        edges.filter (fun edge => edge.1 == .unconditional))).Perm edges := by
  induction edges with
  | nil => exact .refl _
  | cons edge rest induction =>
      rcases edge with ⟨kind, target⟩
      cases kind with
      | onTrue => exact induction.cons _
      | onFalse => exact List.perm_middle.trans (induction.cons _)
      | unconditional =>
          exact ((List.perm_middle.append_left _).trans
            List.perm_middle).trans (induction.cons _)

/-- A block with a shape has one edge to each of the blocks it names. -/
theorem perm_successors_of_shape
    {block : BlockId} {shape : Successors}
    (shaped : graph.successorShape block = .ok shape) :
    shape.targets.Perm (graph.successors block) := by
  have kinds : (graph.targetsBy block .onTrue ++
      (graph.targetsBy block .onFalse ++
        graph.targetsBy block .unconditional)).Perm
      (graph.successors block) := by
    have edges := (perm_by_kind (graph.edgesFrom block)).map Prod.snd
    rwa [List.map_append, List.map_append] at edges
  rw [successorShape] at shaped
  split at shaped
  · split at shaped <;>
      simp only [Except.ok.injEq, reduceCtorEq] at shaped <;>
      subst shape
    · next onTrue onFalse none =>
        rwa [onTrue, onFalse, none] at kinds
    · next onTrue onFalse only =>
        rwa [onTrue, onFalse, only] at kinds
    · next onTrue onFalse none =>
        rwa [onTrue, onFalse, none] at kinds
  · simp at shaped

/-- A numbering that every edge raises leaves no room for a cycle. -/
theorem acyclicTowards_of_raises
    (number : Nat → Nat)
    (raises : ∀ edge ∈ graph.edges, number edge.source < number edge.target)
    (targets : List BlockId) :
    graph.AcyclicTowards targets := by
  have climbs : ∀ first second : BlockId,
      Relation.TransGen (fun before after =>
        graph.OnRoute targets before ∧ graph.OnRoute targets after ∧
          graph.Leads before after) first second →
      number first.index < number second.index := by
    have step : ∀ first second : BlockId, graph.Leads first second →
        number first.index < number second.index := by
      intro first second leads
      rcases leads_iff.mp leads with ⟨_, edge, member, source, rfl⟩
      rw [← source]
      exact raises edge member
    intro first second path
    induction path with
    | single edge => exact step _ _ edge.2.2
    | tail _ edge earlier => exact Nat.lt_trans earlier (step _ _ edge.2.2)
  intro block cycle
  exact Nat.lt_irrefl _ (climbs block block cycle)

/-! ## Retained blocks are those with a path to a target -/

theorem leads_of_mem_predecessors
    {block origin : BlockId} (before : origin ∈ graph.predecessors block) :
    graph.Leads origin block := by
  rw [predecessors] at before
  split at before
  · next contained =>
      rcases List.mem_filter.mp before with ⟨inside, found⟩
      rcases List.any_eq_true.mp found with ⟨edge, member, ends⟩
      simp only [Bool.and_eq_true, beq_iff_eq] at ends
      refine leads_iff.mpr ⟨mem_blocks.mp inside, edge, member, ends.1, ?_⟩
      rcases block with ⟨owner, index⟩
      simp only [contains, Bool.and_eq_true, beq_iff_eq] at contained
      rw [handle, ends.2, contained.1]
  · simp at before

/-- What a search backward finds has a path to what it started from. -/
theorem Closes.reaches
    {goal : BlockId → Prop} {rounds : Nat} {queue seen found : List BlockId}
    (closes : graph.Closes rounds queue seen found)
    (queued : ∀ block ∈ queue, ∃ target, goal target ∧
      Relation.ReflTransGen graph.Leads block target)
    (known : ∀ block ∈ seen, ∃ target, goal target ∧
      Relation.ReflTransGen graph.Leads block target) :
    ∀ block ∈ found, ∃ target, goal target ∧
      Relation.ReflTransGen graph.Leads block target := by
  induction closes with
  | done => exact known
  | @round rounds first queue seen found _ later =>
      rw [List.forall_mem_cons] at queued
      have new : ∀ origin ∈ graph.unseenPredecessors first seen,
          ∃ target, goal target ∧
            Relation.ReflTransGen graph.Leads origin target := by
        intro origin member
        rcases queued.1 with ⟨target, goes, path⟩
        exact ⟨target, goes, path.head (leads_of_mem_predecessors
          (mem_unseenPredecessors.mp member).1)⟩
      exact later (List.forall_mem_append.mpr ⟨queued.2, new⟩)
        (List.forall_mem_append.mpr ⟨known, new⟩)

/-- From a retained block one of the graph's own targets can be reached. -/
theorem reaches_of_mem_blocksReaching
    {block : BlockId} (member : block ∈ graph.blocksReaching targets) :
    ∃ target, (graph.contains target = true ∧ target ∈ targets) ∧
      Relation.ReflTransGen graph.Leads block target := by
  have start : ∀ target ∈ graph.ownTargets targets,
      ∃ goal, (graph.contains goal = true ∧ goal ∈ targets) ∧
        Relation.ReflTransGen graph.Leads target goal := by
    intro target own
    rcases mem_ownTargets.mp own with ⟨inside, listed⟩
    exact ⟨target, ⟨mem_blocks.mp inside, listed⟩, .refl⟩
  rcases exists_closes graph targets with ⟨_, _, _, _, closes, same⟩
  exact closes.reaches start start block ((same block).mp member)

/-- A block from which one of the graph's own targets can be reached stays. -/
theorem mem_blocksReaching_of_path
    {block target : BlockId} (own : graph.contains target = true)
    (member : target ∈ targets)
    (path : Relation.ReflTransGen graph.Leads block target) :
    block ∈ graph.blocksReaching targets := by
  induction path using Relation.ReflTransGen.head_induction_on with
  | refl => exact target_mem_blocksReaching own member
  | head edge _ retained =>
      have contained := mem_blocks.mp (blocksReaching_subset _ _ retained)
      exact predecessor_mem_blocksReaching retained
        (mem_predecessors_of_successor edge contained)

/--
Pruning is exact.  The search backward from the targets ends, within as many
rounds as the graph has blocks, and the blocks retained are those it finds:
each once, the blocks of the graph from which a target of the graph can be
reached.  Handles of other graphs among the targets count for nothing, and
neither does a target that is given twice.
-/
theorem retained_iff_reaches_target
    (graph : FlowGraph) (targets : List BlockId) :
    (∃ rounds ≤ graph.size, ∃ found,
      graph.backwardClosure graph.size (graph.ownTargets targets)
          (graph.ownTargets targets) = some found ∧
      graph.Closes rounds (graph.ownTargets targets) (graph.ownTargets targets)
        found ∧
      ∀ block, block ∈ graph.blocksReaching targets ↔ block ∈ found) ∧
    (graph.blocksReaching targets).Nodup ∧
    ∀ block, block ∈ graph.blocksReaching targets ↔
      graph.contains block = true ∧
        ∃ target ∈ targets, graph.contains target = true ∧
          Relation.ReflTransGen graph.Leads block target := by
  refine ⟨exists_closes graph targets, nodup_blocksReaching targets, ?_⟩
  intro block
  constructor
  · intro retained
    rcases reaches_of_mem_blocksReaching retained with
      ⟨target, ⟨own, listed⟩, path⟩
    exact ⟨mem_blocks.mp (blocksReaching_subset _ _ retained), target,
      listed, own, path⟩
  · rintro ⟨_, target, listed, own, path⟩
    exact mem_blocksReaching_of_path own listed path

/-! ## Ranked blocks have a path from the entry -/

/-- A step of the depth-first walk. -/
def WalksTo (graph : FlowGraph) (retained : List BlockId)
    (first second : BlockId) : Prop :=
  second ∈ graph.retainedSuccessors retained first

theorem walksTo_iff {first second : BlockId} :
    graph.WalksTo retained first second ↔
      graph.Leads first second ∧ second ∈ retained := by
  simp [WalksTo, retainedSuccessors, Leads]

/-- A walk leaves only blocks that it has a path to. -/
theorem path_of_mem_walkFrom
    (depth : Nat) {block other : BlockId} {progress : Walk}
    (left : other ∈ (graph.walkFrom retained depth block progress).ranked) :
    other ∈ progress.ranked ∨
      Relation.ReflTransGen (graph.WalksTo retained) block other := by
  induction depth generalizing block other progress with
  | zero => exact Or.inl left
  | succ depth induction =>
      have through : ∀ (blocks : List BlockId) (soFar : Walk),
          (∀ next ∈ blocks, graph.WalksTo retained block next) →
          other ∈ (blocks.foldl (fun soFar next =>
            graph.walkFrom retained depth next soFar) soFar).ranked →
          other ∈ soFar.ranked ∨
            Relation.ReflTransGen (graph.WalksTo retained) block other := by
        intro blocks
        induction blocks with
        | nil => exact fun soFar _ member => Or.inl member
        | cons next rest later =>
            intro soFar steps member
            rw [List.forall_mem_cons] at steps
            rcases later _ steps.2 member with first | path
            · rcases induction first with old | path
              · exact Or.inl old
              · exact Or.inr (path.head steps.1)
            · exact Or.inr path
      rw [walkFrom] at left
      split at left
      · exact Or.inl left
      · rcases List.mem_cons.mp left with rfl | inside
        · exact Or.inr .refl
        · exact through _ { progress with met := block :: progress.met }
            (fun _ step => step) inside

theorem path_of_mem_rankedBlocks
    {block : BlockId} (member : block ∈ graph.rankedBlocks retained) :
    Relation.ReflTransGen (graph.WalksTo retained) graph.entry block := by
  have entered := entry_mem_of_mem_rankedBlocks member
  rw [rankedBlocks_eq entered] at member
  exact (path_of_mem_walkFrom graph.size member).resolve_left (by simp)

/-- A walk that starts at a retained block stays among them. -/
theorem mem_of_path
    {first second : BlockId} (start : first ∈ retained)
    (path : Relation.ReflTransGen (graph.WalksTo retained) first second) :
    second ∈ retained := by
  induction path with
  | refl => exact start
  | tail _ step _ => exact (walksTo_iff.mp step).2

/-- A block with a walk from the entry lies on a route to a target. -/
theorem onRoute_of_path
    {block : BlockId} (entered : graph.entry ∈ graph.blocksReaching targets)
    (path : Relation.ReflTransGen
      (graph.WalksTo (graph.blocksReaching targets)) graph.entry block) :
    graph.OnRoute targets block where
  entered := by
    induction path with
    | refl => exact .refl
    | tail _ step earlier => exact earlier.tail (walksTo_iff.mp step).1
  leads := by
    rcases reaches_of_mem_blocksReaching (mem_of_path entered path) with
      ⟨target, ⟨_, listed⟩, onward⟩
    exact ⟨target, listed, onward⟩

/-! ## Routes are ranked -/

/-- The ranked blocks are those between the entry and the targets. -/
theorem mem_rankedBlocks_iff
    (own : ∀ target ∈ targets, graph.contains target = true)
    {block : BlockId} :
    block ∈ graph.rankedBlocks (graph.blocksReaching targets) ↔
      graph.OnRoute targets block := by
  constructor
  · intro ranked
    exact onRoute_of_path (entry_mem_of_mem_rankedBlocks ranked)
      (path_of_mem_rankedBlocks ranked)
  · rintro ⟨path, target, member, onward⟩
    have retained := mem_blocksReaching_of_path (own target member) member
      onward
    have kept : ∀ block ∈ graph.blocksReaching targets,
        block ∈ graph.blocks := blocksReaching_subset targets
    clear onward
    induction path with
    | refl => exact entry_mem_rankedBlocks kept retained
    | tail _ edge earlier =>
        have contained := mem_blocks.mp (kept _ retained)
        have before := predecessor_mem_blocksReaching retained
          (mem_predecessors_of_successor edge contained)
        exact successor_mem_rankedBlocks kept (earlier before) edge retained

/-- The entry is ranked if and only if it has a path to a target. -/
theorem entry_mem_rankedBlocks_iff
    (own : ∀ target ∈ targets, graph.contains target = true) :
    graph.entry ∈ graph.rankedBlocks (graph.blocksReaching targets) ↔
      ∃ target ∈ targets,
        Relation.ReflTransGen graph.Leads graph.entry target :=
  (mem_rankedBlocks_iff own).trans
    ⟨OnRoute.leads, fun leads => ⟨.refl, leads⟩⟩

/-! ## The order of the ranks -/

/--
The blocks left so far have had their successors met, and none of them is
followed by a block that was left later.
-/
structure Settled (graph : FlowGraph) (retained : List BlockId)
    (progress : Walk) : Prop where
  closed : ∀ block ∈ progress.ranked, ∀ next,
    graph.WalksTo retained block next → next ∈ progress.met
  ordered : progress.ranked.Pairwise (fun later earlier =>
    ¬ graph.WalksTo retained earlier later)

/-- A walk through several blocks in turn keeps the blocks left in order. -/
theorem settled_foldl
    {depth : Nat} (kept : ∀ block ∈ retained, block ∈ graph.blocks)
    (settles : ∀ {block : BlockId} {progress : Walk}, block ∈ graph.blocks →
      graph.Walking progress → graph.size ≤ depth + progress.met.length →
      (∀ other, Relation.ReflTransGen (graph.WalksTo retained) block other →
        ¬ Relation.TransGen (graph.WalksTo retained) other other) →
      graph.Settled retained progress →
      graph.Settled retained (graph.walkFrom retained depth block progress))
    (blocks : List BlockId) (inside : ∀ block ∈ blocks, block ∈ graph.blocks)
    (acyclic : ∀ block ∈ blocks, ∀ other,
      Relation.ReflTransGen (graph.WalksTo retained) block other →
        ¬ Relation.TransGen (graph.WalksTo retained) other other)
    {progress : Walk} (walking : graph.Walking progress)
    (enough : graph.size ≤ depth + progress.met.length)
    (settled : graph.Settled retained progress) :
    graph.Settled retained (blocks.foldl (fun soFar next =>
      graph.walkFrom retained depth next soFar) progress) := by
  induction blocks generalizing progress with
  | nil => exact settled
  | cons block rest induction =>
      rw [List.forall_mem_cons] at inside acyclic
      have walked := (walked_walkFrom kept inside.1 walking enough).1
      have longer := walked.met.length_le
      have deep : graph.size ≤ depth +
          (graph.walkFrom retained depth block progress).met.length := by
        omega
      exact induction inside.2 acyclic.2 walked.walking deep
        (settles inside.1 walking enough acyclic.1 settled)

/-- Where no walk comes back, a block is left before all that lead to it. -/
theorem settled_walkFrom
    (kept : ∀ block ∈ retained, block ∈ graph.blocks)
    {depth : Nat} {block : BlockId} {progress : Walk}
    (member : block ∈ graph.blocks) (walking : graph.Walking progress)
    (enough : graph.size ≤ depth + progress.met.length)
    (acyclic : ∀ other,
      Relation.ReflTransGen (graph.WalksTo retained) block other →
        ¬ Relation.TransGen (graph.WalksTo retained) other other)
    (settled : graph.Settled retained progress) :
    graph.Settled retained (graph.walkFrom retained depth block progress) := by
  induction depth generalizing block progress with
  | zero => exact settled
  | succ depth induction =>
      have left : ∀ other,
          other ∈ (graph.walkFrom retained (depth + 1) block progress).ranked →
          other ∈ progress.ranked ∨
            Relation.ReflTransGen (graph.WalksTo retained) block other :=
        fun _ => path_of_mem_walkFrom (depth + 1)
      rw [walkFrom] at left ⊢
      split
      · exact settled
      · next unknown =>
          rw [if_neg unknown] at left
          have fresh : block ∉ progress.met := by simpa using unknown
          have entered : graph.Walking
              { progress with met := block :: progress.met } :=
            ⟨List.nodup_cons.mpr ⟨fresh, walking.nodup⟩,
              List.forall_mem_cons.mpr ⟨member, walking.inside⟩⟩
          have deep : graph.size ≤ depth +
              (block :: progress.met).length := by
            simp only [List.length_cons]
            omega
          have nextInside : ∀ next ∈ graph.retainedSuccessors retained block,
              next ∈ graph.blocks :=
            fun next after => kept next (retainedSuccessors_subset after)
          have met := (walked_foldl (walked_walkFrom kept)
            (graph.retainedSuccessors retained block) nextInside entered
            deep).2
          have inner := settled_foldl kept induction
            (graph.retainedSuccessors retained block) nextInside
            (fun next step other path => acyclic other (path.head step))
            entered deep
            ⟨fun other ranked next step => List.mem_cons_of_mem _
              (settled.closed other ranked next step), settled.ordered⟩
          constructor
          case closed =>
            rw [List.forall_mem_cons]
            exact ⟨met, inner.closed⟩
          case ordered =>
            refine List.pairwise_cons.mpr ⟨?_, inner.ordered⟩
            intro other ranked back
            -- `other` was left before `block` was met, and then its successor
            -- would be known, or it was met from `block`, and closes a cycle.
            rcases left other (List.mem_cons_of_mem _ ranked) with old | path
            · exact fresh (settled.closed other old block back)
            · exact acyclic block .refl (Relation.TransGen.tail' path back)

/-- A walk that can be come to from the entry keeps to what all such blocks do. -/
theorem transGen_of_walk
    {Holds : BlockId → Prop}
    (holds : ∀ block, Relation.ReflTransGen (graph.WalksTo retained)
      graph.entry block → Holds block)
    {first second : BlockId}
    (path : Relation.ReflTransGen (graph.WalksTo retained) graph.entry first)
    (walk : Relation.TransGen (graph.WalksTo retained) first second) :
    Relation.TransGen (fun before after =>
      Holds before ∧ Holds after ∧ graph.Leads before after) first second := by
  induction walk with
  | single step =>
      exact .single ⟨holds _ path, holds _ (path.tail step),
        (walksTo_iff.mp step).1⟩
  | tail walk step earlier =>
      have reached := path.trans walk.to_reflTransGen
      exact earlier.tail ⟨holds _ reached, holds _ (reached.tail step),
        (walksTo_iff.mp step).1⟩

/-- Without cycles between the entry and the targets, no walk comes back. -/
theorem not_cycle_of_path
    (acyclic : graph.AcyclicTowards targets)
    (entered : graph.entry ∈ graph.blocksReaching targets)
    {block : BlockId} (path : Relation.ReflTransGen
      (graph.WalksTo (graph.blocksReaching targets)) graph.entry block) :
    ¬ Relation.TransGen (graph.WalksTo (graph.blocksReaching targets))
      block block :=
  fun cycle => acyclic block
    (transGen_of_walk (fun _ => onRoute_of_path entered) path cycle)

theorem getElem?_of_rankOf?
    {ranked : List BlockId} {block : BlockId} {rank : Nat}
    (found : rankOf? ranked block = some rank) :
    ranked[rank]? = some block := by
  rcases List.findIdx?_eq_some_iff_getElem.mp found with ⟨inside, here, _⟩
  rw [List.getElem?_eq_getElem inside, eq_of_beq here]

/-- Where no walk from the entry comes back, every step goes up in rank. -/
theorem rank_lt_of_walksTo
    (kept : ∀ block ∈ retained, block ∈ graph.blocks)
    (acyclic : ∀ block,
      Relation.ReflTransGen (graph.WalksTo retained) graph.entry block →
        ¬ Relation.TransGen (graph.WalksTo retained) block block)
    {first second : BlockId} {lower upper : Nat}
    (step : graph.WalksTo retained first second)
    (low : rankOf? (graph.rankedBlocks retained) first = some lower)
    (high : rankOf? (graph.rankedBlocks retained) second = some upper) :
    lower < upper := by
  have lowAt := getElem?_of_rankOf? low
  have highAt := getElem?_of_rankOf? high
  have firstPath := path_of_mem_rankedBlocks (List.mem_of_getElem? lowAt)
  have entered := entry_mem_of_mem_rankedBlocks (List.mem_of_getElem? lowAt)
  have settled : graph.Settled retained
      (graph.walkFrom retained graph.size graph.entry ⟨[], []⟩) :=
    settled_walkFrom kept (kept _ entered) ⟨List.nodup_nil, by simp⟩
      (by simp) acyclic ⟨by simp, List.Pairwise.nil⟩
  have ordered := settled.ordered
  rw [← rankedBlocks_eq entered] at ordered
  rcases Nat.lt_trichotomy lower upper with below | same | above
  · exact below
  · subst same
    rw [lowAt, Option.some.injEq] at highAt
    subst highAt
    exact absurd (.single step) (acyclic _ firstPath)
  · rcases List.getElem?_eq_some_iff.mp lowAt with ⟨lowInside, rfl⟩
    rcases List.getElem?_eq_some_iff.mp highAt with ⟨highInside, rfl⟩
    exact absurd step
      (List.pairwise_iff_getElem.mp ordered upper lower highInside lowInside
        above)

/-- Without cycles, an edge between ranked blocks goes to the higher rank. -/
theorem rank_lt_of_leads
    (acyclic : graph.AcyclicTowards targets)
    {first second : BlockId} {lower upper : Nat}
    (leads : graph.Leads first second)
    (low : rankOf? (graph.rankedBlocks (graph.blocksReaching targets)) first =
      some lower)
    (high : rankOf? (graph.rankedBlocks (graph.blocksReaching targets)) second =
      some upper) :
    lower < upper := by
  have ranked := List.mem_of_getElem? (getElem?_of_rankOf? high)
  have entered := entry_mem_of_mem_rankedBlocks ranked
  have retains := mem_of_path entered (path_of_mem_rankedBlocks ranked)
  exact rank_lt_of_walksTo (blocksReaching_subset targets)
    (fun _ => not_cycle_of_path acyclic entered)
    (walksTo_iff.mpr ⟨leads, retains⟩) low high

end FlowGraph

end FlowWitness.Graph
