import FlowWitness.Exploration.VersionMap
import FlowWitness.Proofs.Smt.WellSorted

/-!
# Version maps

What the operations on version maps do to the version of each symbol.  The
entries of a map are in strict order of their keys, so an entry says what the
map says of its key; and a merged map is never behind any of its parts.

The maps of a search are regular: in order, and with keys of a sort that has
values.  Every operation of a search keeps them so.
-/

namespace FlowWitness.Exploration

open FlowWitness.Smt

/-! ## The order of keys -/

theorem SmtSort.before_trans
    {first second third : SmtSort}
    (left : first.before second = true) (right : second.before third = true) :
    first.before third = true := by
  cases first <;> cases second <;> cases third <;>
    simp_all [SmtSort.before, SmtSort.family]
  omega

theorem SmtSort.before_irrefl (sort : SmtSort) : sort.before sort = false := by
  cases sort <;> simp [SmtSort.before, SmtSort.family]

theorem SmtSort.before_of_not_before
    {first second : SmtSort} (different : first ≠ second)
    (notBefore : first.before second = false) :
    second.before first = true := by
  cases first <;> cases second <;>
    simp_all [SmtSort.before, SmtSort.family]
  omega

namespace SymbolKey

theorem before_iff {first second : SymbolKey} :
    first.before second = true ↔
      first.name < second.name ∨
        (first.name = second.name ∧ first.sort.before second.sort = true) := by
  simp [before]

theorem before_irrefl (key : SymbolKey) : ¬ key.before key = true := by
  rw [before_iff]
  rintro (less | ⟨_, less⟩)
  · exact String.lt_irrefl _ less
  · rw [SmtSort.before_irrefl] at less
    simp at less

theorem before_trans
    {first second third : SymbolKey}
    (left : first.before second = true) (right : second.before third = true) :
    first.before third = true := by
  rw [before_iff] at *
  rcases left with less | ⟨same, less⟩
  · rcases right with further | ⟨same, _⟩
    · exact Or.inl (String.lt_trans less further)
    · exact Or.inl (same ▸ less)
  · rcases right with further | ⟨alsoSame, further⟩
    · exact Or.inl (same ▸ further)
    · exact Or.inr ⟨same.trans alsoSame, SmtSort.before_trans less further⟩

theorem before_of_not_before
    {first second : SymbolKey} (different : first ≠ second)
    (notBefore : ¬ first.before second = true) :
    second.before first = true := by
  rw [before_iff] at *
  rw [not_or] at notBefore
  rcases notBefore with ⟨notLess, notSorted⟩
  have notAfter : second.name ≤ first.name := String.not_lt.mp notLess
  by_cases less : second.name < first.name
  · exact Or.inl less
  · have same : second.name = first.name :=
      String.le_antisymm notAfter (String.not_lt.mp less)
    refine Or.inr ⟨same, SmtSort.before_of_not_before ?_ ?_⟩
    · intro sameSort
      apply different
      cases first
      cases second
      simp_all
    · simpa [same] using notSorted

end SymbolKey

namespace VersionMap

/-! ## Lookup -/

theorem lookup_place_self
    (key : SymbolKey) (version : Nat) (entries : List (SymbolKey × Nat)) :
    lookup key (place key version entries) = some version := by
  induction entries with
  | nil => simp [place, lookup]
  | cons entry rest induction =>
      rcases entry with ⟨other, current⟩
      rw [place]
      split
      · simp [lookup]
      · next different =>
          split
          · simp [lookup]
          · simp [lookup, different, induction]

theorem lookup_place_of_ne
    {key target : SymbolKey} (different : target ≠ key) (version : Nat)
    (entries : List (SymbolKey × Nat)) :
    lookup target (place key version entries) = lookup target entries := by
  induction entries with
  | nil => simp [place, lookup, different.symm]
  | cons entry rest induction =>
      rcases entry with ⟨other, current⟩
      rw [place]
      split
      · next same =>
          subst other
          simp [lookup, different.symm]
      · split
        · simp [lookup, different.symm]
        · simp [lookup, induction]

theorem mem_of_lookup
    {key : SymbolKey} {version : Nat} {entries : List (SymbolKey × Nat)}
    (found : lookup key entries = some version) :
    (key, version) ∈ entries := by
  induction entries with
  | nil => simp [lookup] at found
  | cons entry rest induction =>
      rcases entry with ⟨other, current⟩
      rw [lookup] at found
      split at found
      · next same =>
          simp only [Option.some.injEq] at found
          subst other
          subst current
          exact List.mem_cons_self
      · exact List.mem_cons_of_mem _ (induction found)

@[simp]
theorem get_empty (key : SymbolKey) : empty.get key = 0 :=
  rfl

@[simp]
theorem get_insert_self (map : VersionMap) (key : SymbolKey) (version : Nat) :
    (map.insert key version).get key = version := by
  simp [get, get?, insert, lookup_place_self]

theorem get_insert_of_ne
    (map : VersionMap) {key target : SymbolKey} (different : target ≠ key)
    (version : Nat) :
    (map.insert key version).get target = map.get target := by
  simp [get, get?, insert, lookup_place_of_ne different]

/-- Inserting a version that is not lower lowers no version. -/
theorem get_le_get_insert
    (map : VersionMap) {key : SymbolKey} {version : Nat}
    (above : map.get key ≤ version) (target : SymbolKey) :
    map.get target ≤ (map.insert key version).get target := by
  by_cases same : target = key
  · subst target
    rwa [get_insert_self]
  · exact Nat.le_of_eq (get_insert_of_ne map same version).symm

/-- A version other than zero has an entry. -/
theorem mem_entries_of_get_pos
    {map : VersionMap} {key : SymbolKey} (positive : 0 < map.get key) :
    (key, map.get key) ∈ map.entries := by
  unfold get at positive ⊢
  cases found : map.get? key with
  | none => simp [found] at positive
  | some version => exact mem_of_lookup found

/-! ## Order of the entries -/

/-- The entries are in strict order of their keys. -/
def Ordered (map : VersionMap) : Prop :=
  map.entries.Pairwise (fun first second => first.1.before second.1 = true)

theorem mem_place
    {key : SymbolKey} {version : Nat} {entries : List (SymbolKey × Nat)}
    {entry : SymbolKey × Nat} (member : entry ∈ place key version entries) :
    entry = (key, version) ∨ entry ∈ entries := by
  induction entries with
  | nil =>
      rw [place, List.mem_singleton] at member
      exact Or.inl member
  | cons head rest induction =>
      rcases head with ⟨other, current⟩
      rw [place] at member
      split at member
      · rcases List.mem_cons.mp member with same | inRest
        · exact Or.inl same
        · exact Or.inr (List.mem_cons_of_mem _ inRest)
      · split at member
        · rcases List.mem_cons.mp member with same | inEntries
          · exact Or.inl same
          · exact Or.inr inEntries
        · rcases List.mem_cons.mp member with same | inRest
          · exact Or.inr (same ▸ List.mem_cons_self)
          · rcases induction inRest with same | old
            · exact Or.inl same
            · exact Or.inr (List.mem_cons_of_mem _ old)

theorem Ordered.nodup_entries {map : VersionMap} (ordered : map.Ordered) :
    map.entries.Nodup := by
  refine ordered.imp ?_
  rintro entry _ before rfl
  exact SymbolKey.before_irrefl _ before

theorem Ordered.insert
    {map : VersionMap} (ordered : map.Ordered)
    (key : SymbolKey) (version : Nat) :
    (map.insert key version).Ordered := by
  rcases map with ⟨entries⟩
  change entries.Pairwise _ at ordered
  change (place key version entries).Pairwise _
  induction entries with
  | nil => exact List.pairwise_singleton _ _
  | cons head rest induction =>
      rcases head with ⟨other, current⟩
      rw [List.pairwise_cons] at ordered
      rcases ordered with ⟨first, later⟩
      rw [place]
      split
      · next same =>
          subst other
          exact List.pairwise_cons.mpr ⟨first, later⟩
      · next different =>
          split
          · next before =>
              refine List.pairwise_cons.mpr
                ⟨?_, List.pairwise_cons.mpr ⟨first, later⟩⟩
              intro entry member
              rcases List.mem_cons.mp member with rfl | inRest
              · exact before
              · exact SymbolKey.before_trans before (first entry inRest)
          · next notBefore =>
              refine List.pairwise_cons.mpr ⟨?_, induction later⟩
              intro entry member
              rcases mem_place member with rfl | inRest
              · exact SymbolKey.before_of_not_before
                  (fun same => different same.symm) notBefore
              · exact first entry inRest

/-- In an ordered map, an entry is what the map has for its key. -/
theorem Ordered.get?_of_mem
    {map : VersionMap} (ordered : map.Ordered)
    {key : SymbolKey} {version : Nat} (member : (key, version) ∈ map.entries) :
    map.get? key = some version := by
  rcases map with ⟨entries⟩
  change entries.Pairwise _ at ordered
  change lookup key entries = some version
  simp only at member
  induction entries with
  | nil => simp at member
  | cons head rest induction =>
      rcases head with ⟨other, current⟩
      rw [List.pairwise_cons] at ordered
      rw [lookup]
      rcases List.mem_cons.mp member with same | inRest
      · simp only [Prod.mk.injEq] at same
        simp [same.1, same.2]
      · have before := ordered.1 (key, version) inRest
        have different : other ≠ key := by
          rintro rfl
          exact SymbolKey.before_irrefl _ before
        rw [if_neg different]
        exact induction inRest ordered.2

/-- In an ordered map, an entry says what the map says of its key. -/
theorem Ordered.get_of_mem
    {map : VersionMap} (ordered : map.Ordered)
    {key : SymbolKey} {version : Nat} (member : (key, version) ∈ map.entries) :
    map.get key = version := by
  rw [get, ordered.get?_of_mem member]
  rfl

/-! ## Merging -/

theorem le_get_raise
    (map : VersionMap) (key target : SymbolKey) (version : Nat) :
    map.get target ≤ (map.raise key version).get target := by
  unfold raise
  split
  · next absent =>
      apply get_le_get_insert
      simp [get, absent]
  · next current present =>
      split
      · next less =>
          apply get_le_get_insert
          simpa [get, present] using Nat.le_of_lt less
      · exact Nat.le_refl _

theorem version_le_get_raise
    (map : VersionMap) (key : SymbolKey) (version : Nat) :
    version ≤ (map.raise key version).get key := by
  unfold raise
  split
  · simp
  · next current present =>
      split
      · simp
      · next notLess =>
          simpa [get, present] using Nat.le_of_not_lt notLess

theorem le_get_foldl_raise
    (entries : List (SymbolKey × Nat)) (map : VersionMap) :
    (∀ key, map.get key ≤ (entries.foldl (fun merged entry =>
        merged.raise entry.1 entry.2) map).get key) ∧
      ∀ entry ∈ entries, entry.2 ≤ (entries.foldl (fun merged entry =>
        merged.raise entry.1 entry.2) map).get entry.1 := by
  induction entries generalizing map with
  | nil => exact ⟨fun _ => Nat.le_refl _, by simp⟩
  | cons head rest induction =>
      rcases induction (map.raise head.1 head.2) with ⟨above, contained⟩
      constructor
      · intro key
        exact Nat.le_trans (le_get_raise map head.1 key head.2) (above key)
      · intro entry member
        rcases List.mem_cons.mp member with rfl | inRest
        · exact Nat.le_trans (version_le_get_raise map entry.1 entry.2)
            (above entry.1)
        · exact contained entry inRest

theorem left_le_get_merge
    (first second : VersionMap) (key : SymbolKey) :
    first.get key ≤ (first.merge second).get key :=
  (le_get_foldl_raise second.entries first).1 key

theorem right_le_get_merge
    (first second : VersionMap) (key : SymbolKey) :
    second.get key ≤ (first.merge second).get key := by
  by_cases positive : 0 < second.get key
  · exact (le_get_foldl_raise second.entries first).2 _
      (mem_entries_of_get_pos positive)
  · omega

theorem le_get_foldl_merge
    (rest : List VersionMap) (first : VersionMap) (key : SymbolKey) :
    first.get key ≤ (rest.foldl merge first).get key ∧
      ∀ map ∈ rest, map.get key ≤ (rest.foldl merge first).get key := by
  induction rest generalizing first with
  | nil => exact ⟨Nat.le_refl _, by simp⟩
  | cons head tail induction =>
      rcases induction (first.merge head) with ⟨above, contained⟩
      refine ⟨Nat.le_trans (left_le_get_merge first head key) above, ?_⟩
      intro map member
      rcases List.mem_cons.mp member with rfl | inTail
      · exact Nat.le_trans (right_le_get_merge first map key) above
      · exact contained map inTail

/-- A merged map is not behind any of its parts. -/
theorem le_get_mergeAll
    {maps : List VersionMap} {map : VersionMap} (member : map ∈ maps)
    (key : SymbolKey) :
    map.get key ≤ (mergeAll maps).get key := by
  cases maps with
  | nil => simp at member
  | cons first rest =>
      rcases le_get_foldl_merge rest first key with ⟨above, contained⟩
      rcases List.mem_cons.mp member with rfl | inRest
      · exact above
      · exact contained map inRest

theorem mem_raise
    {map : VersionMap} {key : SymbolKey} {version : Nat}
    {entry : SymbolKey × Nat} (member : entry ∈ (map.raise key version).entries) :
    entry = (key, version) ∨ entry ∈ map.entries := by
  unfold raise at member
  split at member
  · exact mem_place member
  · split at member
    · exact mem_place member
    · exact Or.inr member

theorem mem_foldl_raise
    {entries : List (SymbolKey × Nat)} {map : VersionMap}
    {entry : SymbolKey × Nat}
    (member : entry ∈ (entries.foldl (fun merged entry =>
      merged.raise entry.1 entry.2) map).entries) :
    entry ∈ map.entries ∨ entry ∈ entries := by
  induction entries generalizing map with
  | nil => exact Or.inl member
  | cons head rest induction =>
      rcases induction member with raised | inRest
      · rcases mem_raise raised with rfl | old
        · exact Or.inr List.mem_cons_self
        · exact Or.inl old
      · exact Or.inr (List.mem_cons_of_mem _ inRest)

theorem mem_foldl_merge
    {rest : List VersionMap} {first : VersionMap} {entry : SymbolKey × Nat}
    (member : entry ∈ (rest.foldl merge first).entries) :
    entry ∈ first.entries ∨ ∃ map ∈ rest, entry ∈ map.entries := by
  induction rest generalizing first with
  | nil => exact Or.inl member
  | cons head tail induction =>
      rcases induction member with merged | ⟨map, inTail, inside⟩
      · rcases mem_foldl_raise merged with old | inHead
        · exact Or.inl old
        · exact Or.inr ⟨head, List.mem_cons_self, inHead⟩
      · exact Or.inr ⟨map, List.mem_cons_of_mem _ inTail, inside⟩

/-- A merged map has no entries but those of its parts. -/
theorem mem_mergeAll
    {maps : List VersionMap} {entry : SymbolKey × Nat}
    (member : entry ∈ (mergeAll maps).entries) :
    ∃ map ∈ maps, entry ∈ map.entries := by
  cases maps with
  | nil => simp [mergeAll, empty] at member
  | cons first rest =>
      rcases mem_foldl_merge member with inFirst | ⟨map, inRest, inside⟩
      · exact ⟨first, List.mem_cons_self, inFirst⟩
      · exact ⟨map, List.mem_cons_of_mem _ inRest, inside⟩

/-! ## Regular maps -/

/-- A map in order, whose keys are of sorts that have values. -/
structure Regular (map : VersionMap) : Prop where
  ordered : map.Ordered
  ground : ∀ entry ∈ map.entries, entry.1.sort.isGround = true

theorem regular_empty : empty.Regular :=
  ⟨List.Pairwise.nil, by simp [empty]⟩

theorem Regular.insert
    {map : VersionMap} (regular : map.Regular)
    {key : SymbolKey} (ground : key.sort.isGround = true) (version : Nat) :
    (map.insert key version).Regular where
  ordered := regular.ordered.insert key version
  ground := by
    intro entry member
    rcases mem_place member with rfl | old
    · exact ground
    · exact regular.ground entry old

theorem Regular.raise
    {map : VersionMap} (regular : map.Regular)
    {key : SymbolKey} (ground : key.sort.isGround = true) (version : Nat) :
    (map.raise key version).Regular := by
  unfold VersionMap.raise
  split
  · exact regular.insert ground version
  · split
    · exact regular.insert ground version
    · exact regular

theorem regular_foldl_raise
    (entries : List (SymbolKey × Nat))
    (ground : ∀ entry ∈ entries, entry.1.sort.isGround = true)
    {map : VersionMap} (regular : map.Regular) :
    (entries.foldl (fun merged entry =>
      merged.raise entry.1 entry.2) map).Regular := by
  induction entries generalizing map with
  | nil => exact regular
  | cons head rest induction =>
      rw [List.forall_mem_cons] at ground
      exact induction ground.2 (regular.raise ground.1 head.2)

theorem regular_foldl_merge
    (rest : List VersionMap) (regular : ∀ map ∈ rest, map.Regular)
    {first : VersionMap} (start : first.Regular) :
    (rest.foldl merge first).Regular := by
  induction rest generalizing first with
  | nil => exact start
  | cons head tail induction =>
      rw [List.forall_mem_cons] at regular
      exact induction regular.2
        (regular_foldl_raise head.entries regular.1.ground start)

theorem regular_mergeAll
    {maps : List VersionMap} (regular : ∀ map ∈ maps, map.Regular) :
    (mergeAll maps).Regular := by
  cases maps with
  | nil => exact regular_empty
  | cons first rest =>
      rw [List.forall_mem_cons] at regular
      exact regular_foldl_merge rest regular.2 regular.1

end VersionMap

end FlowWitness.Exploration
