import FlowWitness.Exploration.ConditionStack
import Mathlib.Data.List.Induction
import Mathlib.Data.List.Nodup
import Mathlib.Data.List.TakeWhile

/-!
# Stacks that share their lower parts

The stacks of a search are made by pushing onto one another, so a node number
stands for a node together with everything below it.  Merging relies on that:
it stops walking down a stack at the first number it has met before, and so
never looks at the conditions underneath.  Since those are the conditions
underneath the node met before, nothing is lost: a merged stack has the
conditions of the nodes it was made from, each once and in their order.
-/

namespace FlowWitness.Exploration

open FlowWitness.Smt

theorem ConditionStack.mem_terms {stack : ConditionStack} {term : Term} :
    term ∈ stack.terms ↔ ∃ node ∈ stack.nodes, node.term = term := by
  simp [ConditionStack.terms]

theorem ConditionStack.terms_push
    (stack : ConditionStack) (id : Nat) (term : Term) :
    (stack.push id term).terms = stack.terms ++ [term] := by
  simp [ConditionStack.terms, ConditionStack.push]

theorem ConditionStack.mem_terms_push
    {stack : ConditionStack} {id : Nat} {pushed term : Term} :
    term ∈ (stack.push id pushed).terms ↔ term = pushed ∨ term ∈ stack.terms := by
  simp [ConditionStack.mem_terms, ConditionStack.push, eq_comm]

/--
Stacks whose node numbers come from the supply, and where a number stands for
one node with one stack below it.
-/
structure Sharing (family : List ConditionStack) (supply : Nat) : Prop where
  below : ∀ stack ∈ family, ∀ node ∈ stack.nodes, node.id < supply
  shared : ∀ first ∈ family, ∀ second ∈ family,
    ∀ firstNode firstRest secondNode secondRest,
      firstNode :: firstRest <:+ first.nodes →
      secondNode :: secondRest <:+ second.nodes →
      firstNode.id = secondNode.id →
      firstNode :: firstRest = secondNode :: secondRest

namespace Sharing

variable {family : List ConditionStack} {supply : Nat}

theorem of_subset
    (sharing : Sharing family supply) {fewer : List ConditionStack}
    (inside : ∀ stack ∈ fewer, stack ∈ family) :
    Sharing fewer supply where
  below stack member := sharing.below stack (inside stack member)
  shared first firstMember second secondMember :=
    sharing.shared first (inside first firstMember) second
      (inside second secondMember)

theorem cons_empty (sharing : Sharing family supply) :
    Sharing (.empty :: family) supply where
  below := by
    intro stack member node inside
    rcases List.mem_cons.mp member with rfl | old
    · simp [ConditionStack.empty] at inside
    · exact sharing.below stack old node inside
  shared := by
    intro first firstMember second secondMember firstNode firstRest secondNode
      secondRest firstSuffix secondSuffix same
    rcases List.mem_cons.mp firstMember with rfl | firstOld
    · simp [ConditionStack.empty] at firstSuffix
    · rcases List.mem_cons.mp secondMember with rfl | secondOld
      · simp [ConditionStack.empty] at secondSuffix
      · exact sharing.shared first firstOld second secondOld firstNode
          firstRest secondNode secondRest firstSuffix secondSuffix same

/-- A part of a pushed stack is the whole of it or a part of the old one. -/
theorem suffix_push
    {stack : ConditionStack} {id : Nat} {term : Term}
    {node : ConditionNode} {rest : List ConditionNode}
    (suffix : node :: rest <:+ (stack.push id term).nodes) :
    node :: rest = ⟨id, term⟩ :: stack.nodes ∨ node :: rest <:+ stack.nodes := by
  simpa [ConditionStack.push, List.suffix_cons_iff] using suffix

/-- Pushing the next number onto one of the stacks keeps the sharing. -/
theorem push
    (sharing : Sharing family supply)
    {stack : ConditionStack} (member : stack ∈ family) (term : Term) :
    Sharing (stack.push supply term :: family) (supply + 1) where
  below := by
    intro other inside node nodeMember
    rcases List.mem_cons.mp inside with rfl | old
    · rcases List.mem_cons.mp nodeMember with rfl | deeper
      · exact Nat.lt_succ_self supply
      · exact Nat.lt_succ_of_lt (sharing.below stack member node deeper)
    · exact Nat.lt_succ_of_lt (sharing.below other old node nodeMember)
  shared := by
    have parts : ∀ other ∈ stack.push supply term :: family,
        ∀ node rest, node :: rest <:+ other.nodes →
          node :: rest = ⟨supply, term⟩ :: stack.nodes ∨
            ∃ old ∈ family, node :: rest <:+ old.nodes := by
      intro other inside node rest suffix
      rcases List.mem_cons.mp inside with rfl | old
      · rcases suffix_push suffix with whole | deeper
        · exact Or.inl whole
        · exact Or.inr ⟨stack, member, deeper⟩
      · exact Or.inr ⟨other, old, suffix⟩
    have older : ∀ old ∈ family, ∀ node rest, node :: rest <:+ old.nodes →
        node.id < supply := by
      intro old inside node rest suffix
      exact sharing.below old inside node (suffix.subset List.mem_cons_self)
    -- A part with the new number is the whole new stack: no old part has it.
    intro first firstMember second secondMember firstNode firstRest secondNode
      secondRest firstSuffix secondSuffix same
    rcases parts first firstMember _ _ firstSuffix with
      firstWhole | ⟨firstOld, firstInside, firstDeeper⟩
    · rcases parts second secondMember _ _ secondSuffix with
        secondWhole | ⟨secondOld, secondInside, secondDeeper⟩
      · exact firstWhole.trans secondWhole.symm
      · have small := older secondOld secondInside _ _ secondDeeper
        simp only [List.cons.injEq] at firstWhole
        rw [← same, firstWhole.1] at small
        exact (Nat.lt_irrefl supply small).elim
    · rcases parts second secondMember _ _ secondSuffix with
        secondWhole | ⟨secondOld, secondInside, secondDeeper⟩
      · have small := older firstOld firstInside _ _ firstDeeper
        simp only [List.cons.injEq] at secondWhole
        rw [same, secondWhole.1] at small
        exact (Nat.lt_irrefl supply small).elim
      · exact sharing.shared firstOld firstInside secondOld secondInside _ _ _
          _ firstDeeper secondDeeper same

/-- A push onto the first of the stacks can take its place. -/
theorem push_top
    {top : ConditionStack} (sharing : Sharing (top :: family) supply)
    (term : Term) :
    Sharing (top.push supply term :: family) (supply + 1) := by
  apply (sharing.push List.mem_cons_self term).of_subset
  intro stack member
  rcases List.mem_cons.mp member with rfl | old
  · exact List.mem_cons_self
  · exact List.mem_cons_of_mem _ (List.mem_cons_of_mem _ old)

/-- A stack has no number twice. -/
theorem nodup_ids
    (sharing : Sharing family supply)
    {stack : ConditionStack} (member : stack ∈ family) :
    (stack.nodes.map ConditionNode.id).Nodup := by
  have parts : ∀ nodes, nodes <:+ stack.nodes →
      (nodes.map ConditionNode.id).Nodup := by
    intro nodes suffix
    induction nodes with
    | nil => exact List.nodup_nil
    | cons node rest induction =>
        refine List.nodup_cons.mpr
          ⟨?_, induction ((List.suffix_cons node rest).trans suffix)⟩
        intro again
        rcases List.mem_map.mp again with ⟨other, deeper, same⟩
        rcases List.append_of_mem deeper with ⟨above, below, split⟩
        have inner : other :: below <:+ node :: rest :=
          ⟨node :: above, by rw [split, List.cons_append]⟩
        -- Two nodes with one number would have stacks of one length below.
        have equal : other :: below = node :: rest :=
          sharing.shared stack member stack member other below node rest
            (inner.trans suffix) suffix same
        have lengths := congrArg List.length equal
        simp only [split, List.length_cons, List.length_append] at lengths
        omega
  exact parts stack.nodes List.suffix_rfl

end Sharing

/-! ## A merge in progress -/

/--
A merge that has taken in some stacks.  Its conditions are those of distinct
nodes, the origins, among which the stacks taken in stand whole and in their
order, and the numbers seen are those of the origins.
-/
structure Absorbed (family taken : List ConditionStack)
    (progress : StackMerge) (origins : List ConditionNode) : Prop where
  sharing : Sharing (progress.merged :: family) progress.supply
  terms : progress.merged.terms = origins.map ConditionNode.term
  seen : ∀ id, id ∈ progress.seen ↔ id ∈ origins.map ConditionNode.id
  distinct : (origins.map ConditionNode.id).Nodup
  own : ∀ node ∈ origins, ∃ stack ∈ taken, node ∈ stack.nodes
  whole : ∀ stack ∈ taken, stack.nodes.reverse.Sublist origins

namespace StackMerge

/-- Push the conditions of nodes as new nodes, the last of them first. -/
def adoptAll (progress : StackMerge) (nodes : List ConditionNode) :
    StackMerge :=
  nodes.foldr (fun node soFar => soFar.adopt node) progress

theorem sharing_adoptAll
    {family : List ConditionStack} {progress : StackMerge}
    (sharing : Sharing (progress.merged :: family) progress.supply)
    (nodes : List ConditionNode) :
    Sharing ((progress.adoptAll nodes).merged :: family)
      (progress.adoptAll nodes).supply := by
  induction nodes with
  | nil => exact sharing
  | cons node rest induction => exact induction.push_top node.term

theorem terms_adoptAll (progress : StackMerge) (nodes : List ConditionNode) :
    (progress.adoptAll nodes).merged.terms =
      progress.merged.terms ++ nodes.reverse.map ConditionNode.term := by
  induction nodes with
  | nil => simp [adoptAll]
  | cons node rest induction =>
      change (ConditionStack.push (progress.adoptAll rest).merged _
        node.term).terms = _
      rw [ConditionStack.terms_push, induction]
      simp

theorem suffix_adoptAll (progress : StackMerge) (nodes : List ConditionNode) :
    progress.merged.nodes <:+ (progress.adoptAll nodes).merged.nodes := by
  induction nodes with
  | nil => exact List.suffix_rfl
  | cons node rest induction => exact induction.trans (List.suffix_cons _ _)

/-- The nodes of a stack that a merge pushes. -/
def missing (progress : StackMerge) (stack : ConditionStack) :
    List ConditionNode :=
  stack.nodes.takeWhile (fun node => !progress.seen.contains node.id)

theorem missing_subset (progress : StackMerge) (stack : ConditionStack) :
    ∀ node ∈ progress.missing stack, node ∈ stack.nodes :=
  fun _ among => (List.takeWhile_sublist _).subset among

theorem not_seen_of_missing
    {progress : StackMerge} {stack : ConditionStack} {node : ConditionNode}
    (among : node ∈ progress.missing stack) :
    node.id ∉ progress.seen := by
  have passed := List.mem_takeWhile_imp among
  simpa using passed

/--
Where the walk down a stack stops, the rest of the stack has been taken in: it
is what is below the node that was met before.
-/
theorem exists_rest_of_missing
    {family taken : List ConditionStack} {progress : StackMerge}
    {origins : List ConditionNode}
    (absorbed : Absorbed family taken progress origins)
    (inside : ∀ other ∈ taken, other ∈ family)
    {stack : ConditionStack} (member : stack ∈ family) :
    ∃ rest, stack.nodes = progress.missing stack ++ rest ∧
      rest.reverse.Sublist origins := by
  refine ⟨stack.nodes.dropWhile (fun node =>
    !progress.seen.contains node.id), List.takeWhile_append_dropWhile.symm, ?_⟩
  have split : progress.missing stack ++ stack.nodes.dropWhile
      (fun node => !progress.seen.contains node.id) = stack.nodes :=
    List.takeWhile_append_dropWhile
  cases dropped : stack.nodes.dropWhile
      (fun node => !progress.seen.contains node.id) with
  | nil => exact List.nil_sublist _
  | cons first rest =>
      rw [dropped] at split
      have seen : first.id ∈ progress.seen := by
        have stopped := List.head?_dropWhile_not
          (fun node : ConditionNode => !progress.seen.contains node.id)
          stack.nodes
        rw [dropped] at stopped
        simpa using stopped
      rcases List.mem_map.mp ((absorbed.seen first.id).mp seen) with
        ⟨met, among, same⟩
      rcases absorbed.own met among with ⟨earlier, takenMember, inEarlier⟩
      rcases List.append_of_mem inEarlier with ⟨above, below, earlierSplit⟩
      have suffix : met :: below <:+ earlier.nodes :=
        ⟨above, earlierSplit.symm⟩
      have equal : met :: below = first :: rest :=
        absorbed.sharing.shared earlier
          (List.mem_cons_of_mem _ (inside earlier takenMember)) stack
          (List.mem_cons_of_mem _ member) met below first rest suffix
          ⟨progress.missing stack, split⟩ same
      rw [← equal]
      exact (List.reverse_prefix.mpr suffix).sublist.trans
        (absorbed.whole earlier takenMember)

/-- Taking in a stack adds the nodes that are missing, the lowest first. -/
theorem absorbed_absorb
    {family taken : List ConditionStack} {progress : StackMerge}
    {origins : List ConditionNode}
    (absorbed : Absorbed family taken progress origins)
    (inside : ∀ other ∈ taken, other ∈ family)
    {stack : ConditionStack} (member : stack ∈ family) :
    Absorbed family (stack :: taken) (progress.absorb stack)
      (origins ++ (progress.missing stack).reverse) where
  sharing := sharing_adoptAll absorbed.sharing (progress.missing stack)
  terms := by
    change (progress.adoptAll (progress.missing stack)).merged.terms = _
    rw [terms_adoptAll, absorbed.terms, List.map_append]
  seen := by
    intro id
    change id ∈ progress.seen ++
      (progress.missing stack).map ConditionNode.id ↔ _
    rw [List.map_append, List.map_reverse, List.mem_append, List.mem_append,
      List.mem_reverse, absorbed.seen id]
  distinct := by
    have fresh : ((progress.missing stack).map ConditionNode.id).Nodup :=
      (absorbed.sharing.nodup_ids (List.mem_cons_of_mem _ member)).sublist
        ((List.takeWhile_sublist _).map _)
    rw [List.map_append, List.map_reverse]
    refine List.Nodup.append absorbed.distinct (List.nodup_reverse.mpr fresh) ?_
    intro id old new
    rcases List.mem_map.mp (List.mem_reverse.mp new) with ⟨node, among, rfl⟩
    exact not_seen_of_missing among ((absorbed.seen _).mpr old)
  own := by
    intro node among
    rcases List.mem_append.mp among with old | new
    · rcases absorbed.own node old with ⟨other, otherMember, inOther⟩
      exact ⟨other, List.mem_cons_of_mem _ otherMember, inOther⟩
    · exact ⟨stack, List.mem_cons_self,
        missing_subset progress stack node (List.mem_reverse.mp new)⟩
  whole := by
    intro other otherMember
    rcases List.mem_cons.mp otherMember with rfl | old
    · rcases exists_rest_of_missing absorbed inside member with
        ⟨rest, split, below⟩
      rw [split, List.reverse_append]
      exact below.append (List.Sublist.refl _)
    · exact (absorbed.whole other old).trans (List.sublist_append_left _ _)

theorem absorbed_foldl
    {family : List ConditionStack} (sources : List ConditionStack)
    {taken : List ConditionStack} {progress : StackMerge}
    {origins : List ConditionNode}
    (absorbed : Absorbed family taken progress origins)
    (inside : ∀ other ∈ taken, other ∈ family)
    (members : ∀ source ∈ sources, source ∈ family) :
    ∃ final, Absorbed family (sources.reverse ++ taken)
      (sources.foldl StackMerge.absorb progress) final := by
  induction sources generalizing taken progress origins with
  | nil => exact ⟨origins, absorbed⟩
  | cons source rest induction =>
      rw [List.forall_mem_cons] at members
      have further := induction
        (absorbed_absorb absorbed inside members.1)
        (by simpa [List.forall_mem_cons] using ⟨members.1, inside⟩) members.2
      simpa using further

/-- A merge never takes anything off its stack. -/
theorem suffix_foldl
    (sources : List ConditionStack) (progress : StackMerge) :
    progress.merged.nodes <:+
      (sources.foldl StackMerge.absorb progress).merged.nodes := by
  induction sources generalizing progress with
  | nil => exact List.suffix_rfl
  | cons source rest induction =>
      have pushed : progress.merged.nodes <:+
          (progress.absorb source).merged.nodes :=
        suffix_adoptAll progress (progress.missing source)
      exact pushed.trans (induction (progress.absorb source))

end StackMerge

/-! ## Merged stacks -/

namespace ConditionStack

theorem longest_concat (sources : List ConditionStack) (last : ConditionStack) :
    longest (sources ++ [last]) = longer (longest sources) last := by
  simp [longest]

/-- No stack is longer than the longest, and none after it is as long. -/
theorem exists_longest
    {sources : List ConditionStack} (nonempty : sources ≠ []) :
    ∃ before after, sources = before ++ longest sources :: after ∧
      (∀ other ∈ before, other.size ≤ (longest sources).size) ∧
      ∀ other ∈ after, other.size < (longest sources).size := by
  induction sources using List.reverseRecOn with
  | nil => exact absurd rfl nonempty
  | append_singleton front last induction =>
      rw [longest_concat]
      by_cases shorter : (longest front).size ≤ last.size
      · rw [longer, if_pos shorter]
        refine ⟨front, [], rfl, ?_, by simp⟩
        intro other member
        rcases induction (List.ne_nil_of_mem member) with
          ⟨before, after, split, notLonger, less⟩
        rw [split, List.mem_append, List.mem_cons] at member
        rcases member with early | rfl | late
        · exact Nat.le_trans (notLonger other early) shorter
        · exact shorter
        · exact Nat.le_trans (Nat.le_of_lt (less other late)) shorter
      · rw [longer, if_neg shorter]
        have some : front ≠ [] := by
          rintro rfl
          exact shorter (Nat.zero_le _)
        rcases induction some with ⟨before, after, split, notLonger, less⟩
        refine ⟨before, after ++ [last], ?_, notLonger, ?_⟩
        · rw [← List.cons_append, ← List.append_assoc, ← split]
        · intro other member
          rcases List.mem_append.mp member with old | new
          · exact less other old
          · rw [List.mem_singleton.mp new]
            exact Nat.lt_of_not_le shorter

/-- The stack that a merge starts from is complete. -/
theorem absorbed_base
    {family : List ConditionStack} {supply : Nat}
    (sharing : Sharing family supply)
    {base : ConditionStack} (member : base ∈ family) :
    Absorbed family [base] ⟨base, base.nodes.map ConditionNode.id, supply⟩
      base.nodes.reverse where
  sharing := sharing.of_subset (by simp [member])
  terms := by simp [terms]
  seen := by simp
  distinct := by
    rw [List.map_reverse, List.nodup_reverse]
    exact sharing.nodup_ids member
  own := by simp
  whole := by simp

/--
The conditions of a stack are those of the nodes of the sources, each node
once: the origins, in which every source stands in its order from bottom to
top.
-/
structure Collects (sources : List ConditionStack) (merged : ConditionStack)
    (origins : List ConditionNode) : Prop where
  terms : merged.terms = origins.map ConditionNode.term
  distinct : (origins.map ConditionNode.id).Nodup
  among : ∀ node, node ∈ origins ↔ ∃ source ∈ sources, node ∈ source.nodes
  ordered : ∀ source ∈ sources, source.nodes.reverse.Sublist origins

/--
A merged stack shares with the stacks it was made from and collects their
nodes.
-/
theorem merge_collects
    {family : List ConditionStack} {supply : Nat}
    (sharing : Sharing family supply)
    {sources : List ConditionStack}
    (members : ∀ source ∈ sources, source ∈ family) :
    Sharing ((merge supply sources).1 :: family) (merge supply sources).2 ∧
      ∃ origins, Collects sources (merge supply sources).1 origins := by
  have baseMember : longest sources = .empty ∨ longest sources ∈ sources := by
    by_cases nothing : sources = []
    · exact Or.inl (by rw [nothing]; rfl)
    · rcases exists_longest nothing with ⟨before, after, split, _⟩
      have member : longest sources ∈ before ++ longest sources :: after := by
        simp
      exact Or.inr (by rwa [← split] at member)
  have inside : longest sources ∈ ConditionStack.empty :: family := by
    rcases baseMember with same | member
    · rw [same]
      exact List.mem_cons_self
    · exact List.mem_cons_of_mem _ (members _ member)
  rcases StackMerge.absorbed_foldl sources
    (absorbed_base sharing.cons_empty inside) (by simpa using inside)
    (fun source member => List.mem_cons_of_mem _ (members source member)) with
    ⟨origins, absorbed⟩
  have whole : ∀ source ∈ sources, source.nodes.reverse.Sublist origins :=
    fun source member => absorbed.whole source (by simp [member])
  refine ⟨absorbed.sharing.of_subset ?_, origins,
    ⟨absorbed.terms, absorbed.distinct, ?_, whole⟩⟩
  · intro stack member
    rcases List.mem_cons.mp member with rfl | old
    · exact List.mem_cons_self
    · exact List.mem_cons_of_mem _ (List.mem_cons_of_mem _ old)
  · intro node
    constructor
    · intro among
      rcases absorbed.own node among with ⟨source, taken, inSource⟩
      simp only [List.mem_append, List.mem_reverse, List.mem_singleton] at taken
      rcases taken with member | rfl
      · exact ⟨source, member, inSource⟩
      · rcases baseMember with same | member
        · rw [same] at inSource
          simp [empty] at inSource
        · exact ⟨_, member, inSource⟩
    · rintro ⟨source, member, inSource⟩
      exact (whole source member).subset (List.mem_reverse.mpr inSource)

/--
A merged stack shares with the stacks it was made from and has exactly their
conditions.
-/
theorem merge_spec
    {family : List ConditionStack} {supply : Nat}
    (sharing : Sharing family supply)
    {sources : List ConditionStack}
    (members : ∀ source ∈ sources, source ∈ family) :
    Sharing ((merge supply sources).1 :: family) (merge supply sources).2 ∧
      ∀ term, term ∈ (merge supply sources).1.terms ↔
        ∃ source ∈ sources, term ∈ source.terms := by
  rcases merge_collects sharing members with ⟨shared, origins, collects⟩
  refine ⟨shared, ?_⟩
  intro term
  rw [collects.terms, List.mem_map]
  simp only [collects.among, mem_terms]
  constructor
  · rintro ⟨node, ⟨source, member, inSource⟩, rfl⟩
    exact ⟨source, member, node, inSource, rfl⟩
  · rintro ⟨source, member, node, inSource, rfl⟩
    exact ⟨node, ⟨source, member, inSource⟩, rfl⟩

end ConditionStack

end FlowWitness.Exploration
