import FlowWitness.Graph.Ranking
import FlowWitness.Proofs.Graph.Pruning

/-!
# Ranking reaches every retained successor

The depth-first walk leaves every block that it meets, and leaves a block only
when all its retained successors have been met.  Its depth never runs out,
because every level meets a block for the first time.  So the ranked blocks
hold the entry, if it is retained, and with a block all its retained
successors, and each of them once.
-/

namespace FlowWitness.Graph.FlowGraph

variable {graph : FlowGraph} {retained : List BlockId}

/-! ## Walks -/

/-- Distinct blocks of the graph have been met. -/
structure Walking (graph : FlowGraph) (progress : Walk) : Prop where
  nodup : progress.met.Nodup
  inside : ∀ block ∈ progress.met, block ∈ graph.blocks

/--
What a walk adds: everything met on the way has been left, and everything
left had its retained successors met.
-/
structure Walked (graph : FlowGraph) (retained : List BlockId)
    (before after : Walk) : Prop where
  walking : graph.Walking after
  met : before.met <:+ after.met
  left : ∀ block ∈ after.met, block ∈ before.met ∨ block ∈ after.ranked
  listed : ∀ block ∈ after.ranked, block ∈ before.ranked ∨ block ∈ after.met
  ranked : ∀ block ∈ before.ranked, block ∈ after.ranked
  closed : ∀ block ∈ after.ranked, block ∈ before.ranked ∨
    ∀ next ∈ graph.retainedSuccessors retained block, next ∈ after.met

theorem Walked.refl {progress : Walk} (walking : graph.Walking progress) :
    graph.Walked retained progress progress :=
  ⟨walking, List.suffix_refl _, fun _ => Or.inl, fun _ => Or.inl,
    fun _ member => member, fun _ => Or.inl⟩

theorem Walked.trans
    {before middle after : Walk}
    (first : graph.Walked retained before middle)
    (second : graph.Walked retained middle after) :
    graph.Walked retained before after where
  walking := second.walking
  met := first.met.trans second.met
  left := by
    intro block member
    rcases second.left block member with inMiddle | done
    · rcases first.left block inMiddle with old | done
      · exact Or.inl old
      · exact Or.inr (second.ranked block done)
    · exact Or.inr done
  listed := by
    intro block member
    rcases second.listed block member with inMiddle | met
    · rcases first.listed block inMiddle with old | met
      · exact Or.inl old
      · exact Or.inr (second.met.subset met)
    · exact Or.inr met
  ranked block member := second.ranked block (first.ranked block member)
  closed := by
    intro block member
    rcases second.closed block member with inMiddle | done
    · rcases first.closed block inMiddle with old | done
      · exact Or.inl old
      · exact Or.inr (fun next after => second.met.subset (done next after))
    · exact Or.inr done

/-- Once as many blocks are met as there are, all are. -/
theorem Walking.mem_of_size_le
    {progress : Walk} (walking : graph.Walking progress)
    (all : graph.size ≤ progress.met.length)
    {block : BlockId} (member : block ∈ graph.blocks) :
    block ∈ progress.met := by
  have permuted :=
    (List.subperm_of_subset walking.nodup walking.inside).perm_of_length_le
      (by rwa [length_blocks])
  exact permuted.mem_iff.mpr member

theorem retainedSuccessors_subset
    {block next : BlockId}
    (member : next ∈ graph.retainedSuccessors retained block) :
    next ∈ retained := by
  simp only [retainedSuccessors, List.mem_filter, List.contains_eq_mem,
    decide_eq_true_eq] at member
  exact member.2

/-- A walk through several blocks in turn meets them all. -/
theorem walked_foldl
    {depth : Nat}
    (walks : ∀ {block : BlockId} {progress : Walk}, block ∈ graph.blocks →
      graph.Walking progress → graph.size ≤ depth + progress.met.length →
      graph.Walked retained progress
          (graph.walkFrom retained depth block progress) ∧
        block ∈ (graph.walkFrom retained depth block progress).met)
    (blocks : List BlockId) (inside : ∀ block ∈ blocks, block ∈ graph.blocks)
    {progress : Walk} (walking : graph.Walking progress)
    (enough : graph.size ≤ depth + progress.met.length) :
    graph.Walked retained progress (blocks.foldl (fun soFar next =>
        graph.walkFrom retained depth next soFar) progress) ∧
      ∀ block ∈ blocks, block ∈ (blocks.foldl (fun soFar next =>
        graph.walkFrom retained depth next soFar) progress).met := by
  induction blocks generalizing progress with
  | nil => exact ⟨.refl walking, by simp⟩
  | cons block rest induction =>
      rw [List.forall_mem_cons] at inside
      rcases walks inside.1 walking enough with ⟨first, here⟩
      have longer := first.met.length_le
      rcases induction inside.2 first.walking (by omega) with
        ⟨further, others⟩
      refine ⟨first.trans further, ?_⟩
      rw [List.forall_mem_cons]
      exact ⟨further.met.subset here, others⟩

/-- Deep enough, a walk from a block meets it and leaves all it meets. -/
theorem walked_walkFrom
    (kept : ∀ block ∈ retained, block ∈ graph.blocks)
    {depth : Nat} {block : BlockId} {progress : Walk}
    (member : block ∈ graph.blocks) (walking : graph.Walking progress)
    (enough : graph.size ≤ depth + progress.met.length) :
    graph.Walked retained progress
        (graph.walkFrom retained depth block progress) ∧
      block ∈ (graph.walkFrom retained depth block progress).met := by
  -- A level deeper, one more block is met, so the two sum to the same.
  induction depth generalizing block progress with
  | zero =>
      exact ⟨.refl walking, walking.mem_of_size_le (by omega) member⟩
  | succ depth induction =>
      rw [walkFrom]
      split
      · next known => exact ⟨.refl walking, by simpa using known⟩
      · next unknown =>
          have fresh : block ∉ progress.met := by simpa using unknown
          have entered : graph.Walking
              { progress with met := block :: progress.met } :=
            ⟨List.nodup_cons.mpr ⟨fresh, walking.nodup⟩,
              List.forall_mem_cons.mpr ⟨member, walking.inside⟩⟩
          rcases walked_foldl induction
              (graph.retainedSuccessors retained block)
              (fun next after => kept next (retainedSuccessors_subset after))
              entered (by simp only [List.length_cons]; omega) with
            ⟨inner, successors⟩
          have here := inner.met.subset List.mem_cons_self
          refine ⟨?_, here⟩
          constructor
          case walking => exact ⟨inner.walking.nodup, inner.walking.inside⟩
          case met => exact (List.suffix_cons _ _).trans inner.met
          case left =>
            intro other met
            rcases inner.left other met with old | done
            · rcases List.mem_cons.mp old with rfl | old
              · exact Or.inr List.mem_cons_self
              · exact Or.inl old
            · exact Or.inr (List.mem_cons_of_mem _ done)
          case listed =>
            intro other ranked
            rcases List.mem_cons.mp ranked with rfl | deeper
            · exact Or.inr here
            · exact inner.listed other deeper
          case ranked =>
            intro other ranked
            exact List.mem_cons_of_mem _ (inner.ranked other ranked)
          case closed =>
            intro other ranked
            rcases List.mem_cons.mp ranked with rfl | deeper
            · exact Or.inr successors
            · exact inner.closed other deeper

/-! ## Ranked blocks -/

theorem walked_entry
    (kept : ∀ block ∈ retained, block ∈ graph.blocks)
    (entered : graph.entry ∈ retained) :
    graph.Walked retained ⟨[], []⟩
        (graph.walkFrom retained graph.size graph.entry ⟨[], []⟩) ∧
      graph.entry ∈
        (graph.walkFrom retained graph.size graph.entry ⟨[], []⟩).met :=
  walked_walkFrom kept (kept _ entered)
    ⟨List.nodup_nil, by simp⟩ (by simp)

theorem rankedBlocks_eq (entered : graph.entry ∈ retained) :
    graph.rankedBlocks retained =
      (graph.walkFrom retained graph.size graph.entry ⟨[], []⟩).ranked := by
  rw [rankedBlocks, if_pos (by simpa using entered)]

theorem entry_mem_of_mem_rankedBlocks
    {block : BlockId} (member : block ∈ graph.rankedBlocks retained) :
    graph.entry ∈ retained := by
  unfold rankedBlocks at member
  split at member
  · next contained => simpa using contained
  · simp at member

theorem entry_mem_rankedBlocks
    (kept : ∀ block ∈ retained, block ∈ graph.blocks)
    (entered : graph.entry ∈ retained) :
    graph.entry ∈ graph.rankedBlocks retained := by
  rcases walked_entry kept entered with ⟨walked, met⟩
  rw [rankedBlocks_eq entered]
  exact (walked.left _ met).resolve_left (by simp)

theorem mem_blocks_of_mem_rankedBlocks
    (kept : ∀ block ∈ retained, block ∈ graph.blocks)
    {block : BlockId} (member : block ∈ graph.rankedBlocks retained) :
    block ∈ graph.blocks := by
  have entered := entry_mem_of_mem_rankedBlocks member
  rcases walked_entry kept entered with ⟨walked, _⟩
  rw [rankedBlocks_eq entered] at member
  exact walked.walking.inside _
    ((walked.listed _ member).resolve_left (by simp))

/-- With a block, its retained successors are ranked. -/
theorem successor_mem_rankedBlocks
    (kept : ∀ block ∈ retained, block ∈ graph.blocks)
    {block next : BlockId} (member : block ∈ graph.rankedBlocks retained)
    (after : next ∈ graph.successors block) (retains : next ∈ retained) :
    next ∈ graph.rankedBlocks retained := by
  have entered := entry_mem_of_mem_rankedBlocks member
  rcases walked_entry kept entered with ⟨walked, _⟩
  rw [rankedBlocks_eq entered] at member ⊢
  have met := (walked.closed _ member).resolve_left (by simp) next
    (by simp [retainedSuccessors, after, retains])
  exact (walked.left _ met).resolve_left (by simp)

/-! ## Every block has one rank -/

/-- What a walk leaves it leaves once, and it had not been met before. -/
structure LeftAnew (before after : Walk) : Prop where
  met : ∀ block ∈ before.met, block ∈ after.met
  left : ∃ new, after.ranked = new ++ before.ranked ∧ new.Nodup ∧
    ∀ block ∈ new, block ∉ before.met ∧ block ∈ after.met

theorem LeftAnew.refl (progress : Walk) : LeftAnew progress progress :=
  ⟨fun _ member => member, [], rfl, List.nodup_nil, by simp⟩

theorem LeftAnew.trans
    {before middle after : Walk}
    (first : LeftAnew before middle) (second : LeftAnew middle after) :
    LeftAnew before after where
  met block member := second.met block (first.met block member)
  left := by
    rcases first.left with ⟨early, earlyRanked, earlyOnce, earlyMet⟩
    rcases second.left with ⟨late, lateRanked, lateOnce, lateMet⟩
    refine ⟨late ++ early, ?_, ?_, ?_⟩
    · rw [lateRanked, earlyRanked, List.append_assoc]
    · apply lateOnce.append earlyOnce
      intro block inLate inEarly
      exact (lateMet block inLate).1 (earlyMet block inEarly).2
    · intro block member
      rcases List.mem_append.mp member with inLate | inEarly
      · exact ⟨fun old => (lateMet block inLate).1 (first.met block old),
          (lateMet block inLate).2⟩
      · exact ⟨(earlyMet block inEarly).1,
          second.met block (earlyMet block inEarly).2⟩

theorem leftAnew_walkFrom (depth : Nat) (block : BlockId) (progress : Walk) :
    LeftAnew progress (graph.walkFrom retained depth block progress) := by
  induction depth generalizing block progress with
  | zero => exact .refl progress
  | succ depth induction =>
      have through : ∀ (blocks : List BlockId) (soFar : Walk),
          LeftAnew soFar (blocks.foldl (fun soFar next =>
            graph.walkFrom retained depth next soFar) soFar) := by
        intro blocks
        induction blocks with
        | nil => exact .refl
        | cons next rest later =>
            exact fun soFar => (induction next soFar).trans (later _)
      rw [walkFrom]
      split
      · exact .refl progress
      · next unknown =>
          have fresh : block ∉ progress.met := by simpa using unknown
          have inner := through (graph.retainedSuccessors retained block)
            { progress with met := block :: progress.met }
          rcases inner.left with ⟨new, ranked, once, anew⟩
          refine ⟨fun other member =>
            inner.met other (List.mem_cons_of_mem _ member),
            block :: new, congrArg (block :: ·) ranked, ?_, ?_⟩
          · refine List.nodup_cons.mpr ⟨fun again => ?_, once⟩
            exact (anew block again).1 List.mem_cons_self
          · rw [List.forall_mem_cons]
            refine ⟨⟨fresh, inner.met block List.mem_cons_self⟩, ?_⟩
            intro other member
            exact ⟨fun old => (anew other member).1
              (List.mem_cons_of_mem _ old), (anew other member).2⟩

theorem nodup_rankedBlocks : (graph.rankedBlocks retained).Nodup := by
  rw [rankedBlocks]
  split
  · rcases (leftAnew_walkFrom graph.size graph.entry ⟨[], []⟩).left with
      ⟨new, ranked, once, _⟩
    rw [ranked, List.append_nil]
    exact once
  · exact List.nodup_nil

end FlowWitness.Graph.FlowGraph
