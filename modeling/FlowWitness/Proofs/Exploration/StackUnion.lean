import FlowWitness.Proofs.Exploration.StackSharing
import Mathlib.Data.List.Dedup

/-!
# Merging is a union of nodes

However stacks come about by pushing and merging, a merge of some of them
loses no node and repeats none: its length is the number of different nodes
in the stacks it was made from.  The longest of these stays as it is, at the
bottom, and every other stack keeps its order above.

The union is one of nodes, not of conditions.  What a merge pushes is a new
node, so a later merge may meet one condition at two nodes and keep both.
-/

namespace FlowWitness.Exploration

open FlowWitness.Smt

/--
The stacks made by a script that creates, pushes and merges, with the number
that the next node will have.
-/
inductive Grown : (family : List ConditionStack) → (supply : Nat) → Prop where
  | start (supply : Nat) : Grown [] supply
  | new {family : List ConditionStack} {supply : Nat}
      (grown : Grown family supply) : Grown (.empty :: family) supply
  | push {family : List ConditionStack} {supply : Nat} {stack : ConditionStack}
      (grown : Grown family supply) (member : stack ∈ family) (term : Term) :
      Grown (stack.push supply term :: family) (supply + 1)
  | merge {family sources : List ConditionStack} {supply : Nat}
      (grown : Grown family supply)
      (members : ∀ source ∈ sources, source ∈ family) :
      Grown ((ConditionStack.merge supply sources).1 :: family)
        (ConditionStack.merge supply sources).2

/-- Whatever the script, a number stands for one node with one stack below. -/
theorem Grown.sharing
    {family : List ConditionStack} {supply : Nat}
    (grown : Grown family supply) : Sharing family supply := by
  induction grown with
  | start supply =>
      constructor
      case below => simp
      case shared => simp
  | new _ sharing => exact sharing.cons_empty
  | push _ member term sharing => exact sharing.push member term
  | merge _ members sharing =>
      exact (ConditionStack.merge_collects sharing members).1

namespace ConditionStack

/-! ## The union -/

/-- The longest stack stays as it is. -/
theorem suffix_merge (supply : Nat) (sources : List ConditionStack) :
    (longest sources).nodes <:+ (merge supply sources).1.nodes :=
  StackMerge.suffix_foldl sources ⟨longest sources,
    (longest sources).nodes.map ConditionNode.id, supply⟩

/-- A stack collects as many conditions as its sources have nodes. -/
theorem Collects.size_eq
    {sources : List ConditionStack} {merged : ConditionStack}
    {origins : List ConditionNode} (collects : Collects sources merged origins) :
    merged.size = ((sources.flatMap nodes).map ConditionNode.id).dedup.length := by
  have numbers : (origins.map ConditionNode.id).Perm
      ((sources.flatMap nodes).map ConditionNode.id).dedup := by
    refine (List.perm_ext_iff_of_nodup collects.distinct
      (List.nodup_dedup _)).mpr ?_
    intro id
    simp only [List.mem_dedup, List.mem_map, List.mem_flatMap, collects.among]
  calc
    merged.size = merged.terms.length := by
      simp [ConditionStack.size, ConditionStack.terms]
    _ = (origins.map ConditionNode.id).length := by
      rw [collects.terms, List.length_map, List.length_map]
    _ = ((sources.flatMap nodes).map ConditionNode.id).dedup.length :=
      numbers.length_eq

/--
The stack is the union of the sources, node by node, on top of the longest of
them; of several that are longest, the last.
-/
structure Unites (sources : List ConditionStack) (merged : ConditionStack) :
    Prop where
  size : merged.size =
    ((sources.flatMap nodes).map ConditionNode.id).dedup.length
  bottom : sources ≠ [] → ∃ before base after,
    sources = before ++ base :: after ∧
      (∀ other ∈ before, other.size ≤ base.size) ∧
      (∀ other ∈ after, other.size < base.size) ∧
      base.nodes <:+ merged.nodes
  collects : ∃ origins, Collects sources merged origins
  complete : ∀ source ∈ sources, ∀ term ∈ source.terms, term ∈ merged.terms

/--
A merge of stacks that any script has made is the union of their nodes: it
carries the condition of each node once, has the longest stack at its bottom
and keeps the order of every stack.
-/
theorem merge_unites_nodes
    {family : List ConditionStack} {supply : Nat} (grown : Grown family supply)
    {sources : List ConditionStack}
    (members : ∀ source ∈ sources, source ∈ family) :
    Unites sources (merge supply sources).1 := by
  rcases merge_collects grown.sharing members with ⟨_, origins, collects⟩
  constructor
  case size => exact collects.size_eq
  case bottom =>
    intro nonempty
    rcases exists_longest nonempty with ⟨before, after, split, notLonger, less⟩
    exact ⟨before, longest sources, after, split, notLonger, less,
      suffix_merge supply sources⟩
  case collects => exact ⟨origins, collects⟩
  case complete =>
    intro source member term inSource
    exact ((merge_spec grown.sharing members).2 term).mpr
      ⟨source, member, inSource⟩

/-! ## A union that repeats a condition -/

/-- One of two stacks above a shared node, with a condition of its own. -/
def forked (id : Nat) (name : String) : ConditionStack :=
  (empty.push 0 (.constant "shared" .bool)).push id (.constant name .bool)

/-- The two stacks merged: the second, and the condition of the first. -/
def rejoined : ConditionStack :=
  (merge 3 [forked 1 "left", forked 2 "right"]).1

/--
Merged once more with the first stack, the merged one meets the condition of
the first at a node of its own, and there are four nodes.
-/
theorem rejoined_unites_nodes :
    (merge 4 [forked 1 "left", rejoined, forked 2 "right"]).1.terms =
        [.constant "shared" .bool, .constant "right" .bool,
          .constant "left" .bool, .constant "left" .bool] ∧
      Unites [forked 1 "left", rejoined, forked 2 "right"]
        (merge 4 [forked 1 "left", rejoined, forked 2 "right"]).1 := by
  have trunk : Grown [empty.push 0 (.constant "shared" .bool), empty] 1 :=
    .push (.new (.start 0)) List.mem_cons_self _
  have left : Grown [forked 1 "left",
      empty.push 0 (.constant "shared" .bool), empty] 2 :=
    .push trunk List.mem_cons_self _
  have right : Grown [forked 2 "right", forked 1 "left",
      empty.push 0 (.constant "shared" .bool), empty] 3 :=
    .push left (by decide) _
  have both : Grown (rejoined :: [forked 2 "right", forked 1 "left",
      empty.push 0 (.constant "shared" .bool), empty]) 4 :=
    .merge right (by decide)
  exact ⟨by decide, merge_unites_nodes both (by decide)⟩

end ConditionStack

end FlowWitness.Exploration
