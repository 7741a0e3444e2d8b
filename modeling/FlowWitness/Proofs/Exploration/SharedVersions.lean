import FlowWitness.Proofs.Exploration.PlainMaps
import Mathlib.Data.List.NodupEquivFin

/-!
# Shared version maps hold what plain maps hold

The slots of a store hold what plain maps hold after the same script, whatever
is shared between them, and whether a run that counts too far stops or wraps.
The invariant is that every slot points to a table that exists and whose
entries are in order; a write to a slot then changes what that slot holds and
leaves all other slots at their tables.  For a merge, the
table of the merged slot changes while the other maps are read, but it is never
one that another slot points to, so these still hold what they held before.
-/

namespace FlowWitness.Exploration

/-! ## Stores -/

namespace VersionSlots

/-- Every slot points to a table, and the tables are in order. -/
structure Sound (store : VersionSlots) : Prop where
  allocated : ∀ table ∈ store.slots, table < store.tables.length
  ordered : ∀ map ∈ store.tables, map.Ordered

/-- Every slot has, for each key, the number of what its map has. -/
def Holds (store : VersionSlots) (maps : List PlainMap) : Prop :=
  store.readAll.map VersionMap.get? = maps.map PlainMap.numbers

variable {store next : VersionSlots} {slot table : Nat} {maps : List PlainMap}

theorem getElem?_readAll (store : VersionSlots) (slot : Nat) :
    store.readAll[slot]? = store.read? slot :=
  List.getElem?_map

theorem lt_of_tableOf? (found : store.tableOf? slot = some table) :
    slot < store.slots.length :=
  (List.getElem?_eq_some_iff.mp found).1

theorem Sound.ordered_contents (sound : store.Sound) (table : Nat) :
    (store.contents table).Ordered := by
  rw [contents]
  cases found : store.tables[table]? with
  | none => exact List.Pairwise.nil
  | some map => exact sound.ordered map (List.mem_of_getElem? found)

theorem Sound.lt_tables
    (sound : store.Sound) (found : store.tableOf? slot = some table) :
    table < store.tables.length :=
  sound.allocated table (List.mem_of_getElem? found)

/-! ## New slots -/

theorem readAll_addTable (sound : store.Sound) (map : VersionMap) :
    (store.addTable map).readAll = store.readAll ++ [map] := by
  rw [readAll, addTable, List.map_append, List.map_singleton]
  congr 1
  · apply List.map_congr_left
    intro table member
    simp [contents, List.getElem?_append_left (sound.allocated table member)]
  · simp [contents]

theorem Sound.addTable
    (sound : store.Sound) {map : VersionMap} (ordered : map.Ordered) :
    (store.addTable map).Sound where
  allocated := by
    intro table member
    rw [VersionSlots.addTable, List.length_append]
    rcases List.mem_append.mp member with old | new
    · exact Nat.lt_add_right _ (sound.allocated table old)
    · rw [List.mem_singleton.mp new]
      exact Nat.lt_add_one _
  ordered := by
    intro other member
    rcases List.mem_append.mp member with old | new
    · exact sound.ordered other old
    · rwa [List.mem_singleton.mp new]

theorem readAll_share (store : VersionSlots) (table : Nat) :
    (store.share table).readAll = store.readAll ++ [store.contents table] :=
  List.map_append

theorem Sound.share
    (sound : store.Sound) (inside : table < store.tables.length) :
    (store.share table).Sound where
  allocated := by
    intro other member
    rcases List.mem_append.mp member with old | new
    · exact sound.allocated other old
    · rwa [List.mem_singleton.mp new]
  ordered := sound.ordered

theorem tableOf?_share_self (store : VersionSlots) (table : Nat) :
    (store.share table).tableOf? store.slots.length = some table :=
  List.getElem?_concat_length

theorem tableOf?_share_of_lt
    (inside : slot < store.slots.length) (table : Nat) :
    (store.share table).tableOf? slot = store.tableOf? slot :=
  List.getElem?_append_left inside

/-! ## Writing -/

/--
The next store holds the map in the slot, and what the store held in the
others, which are at the same tables as before.
-/
structure Rewrites (store next : VersionSlots) (slot : Nat)
    (map : VersionMap) : Prop where
  sound : next.Sound
  held : next.readAll = store.readAll.set slot map
  elsewhere : ∀ other, other ≠ slot → next.tableOf? other = store.tableOf? other

namespace Rewrites

variable {map : VersionMap}

theorem refl (sound : store.Sound) (holds : store.read? slot = some map) :
    Rewrites store store slot map where
  sound := sound
  held := by
    rw [← getElem?_readAll] at holds
    obtain ⟨inside, rfl⟩ := List.getElem?_eq_some_iff.mp holds
    rw [List.set_getElem_self]
  elsewhere := fun _ _ => rfl

theorem trans
    {middle : VersionSlots} {first : VersionMap}
    (before : Rewrites store middle slot first)
    (after : Rewrites middle next slot map) :
    Rewrites store next slot map where
  sound := after.sound
  held := by rw [after.held, before.held, List.set_set]
  elsewhere := fun other different =>
    (after.elsewhere other different).trans (before.elsewhere other different)

theorem read?_self
    (rewrites : Rewrites store next slot map)
    (inside : slot < store.slots.length) :
    next.read? slot = some map := by
  have bound : slot < store.readAll.length := by simpa [readAll] using inside
  rw [← getElem?_readAll, rewrites.held, List.getElem?_set_self bound]

theorem read?_of_ne
    (rewrites : Rewrites store next slot map)
    {other : Nat} (different : other ≠ slot) :
    next.read? other = store.read? other := by
  rw [← getElem?_readAll, rewrites.held,
    List.getElem?_set_ne (Ne.symm different), getElem?_readAll]

/-- A table that another slot points to holds what it held. -/
theorem contents_eq
    (rewrites : Rewrites store next slot map)
    {other : Nat} (different : other ≠ slot)
    (found : store.tableOf? other = some table) :
    next.contents table = store.contents table := by
  have same := rewrites.read?_of_ne different
  rw [read?, read?, rewrites.elsewhere other different, found] at same
  exact Option.some.inj same

end Rewrites

/-- A table that only one slot points to belongs to that slot. -/
theorem eq_of_count_le_one
    (alone : store.slots.count table ≤ 1)
    (found : store.tableOf? slot = some table)
    {other : Nat} (also : store.tableOf? other = some table) :
    other = slot := by
  have once : ∀ {first second : Nat}, store.tableOf? first = some table →
      store.tableOf? second = some table → ¬ first < second := by
    intro first second atFirst atSecond before
    obtain ⟨firstInside, firstTable⟩ := List.getElem?_eq_some_iff.mp atFirst
    obtain ⟨secondInside, secondTable⟩ :=
      List.getElem?_eq_some_iff.mp atSecond
    have twice : store.slots.Duplicate table :=
      List.duplicate_iff_exists_distinct_get.mpr
        ⟨⟨first, firstInside⟩, ⟨second, secondInside⟩, before,
          firstTable.symm, secondTable.symm⟩
    have := List.duplicate_iff_two_le_count.mp twice
    omega
  exact Nat.le_antisymm (Nat.le_of_not_lt (once found also))
    (Nat.le_of_not_lt (once also found))

theorem readAll_eq_set
    {map : VersionMap} (inside : slot < store.slots.length)
    (here : next.read? slot = some map)
    (elsewhere : ∀ other, other ≠ slot →
      next.read? other = store.read? other) :
    next.readAll = store.readAll.set slot map := by
  apply List.ext_getElem?
  intro other
  rw [getElem?_readAll]
  by_cases same : other = slot
  · subst other
    rw [here, List.getElem?_set_self (by simpa [readAll] using inside)]
  · rw [elsewhere other same, List.getElem?_set_ne (Ne.symm same),
      getElem?_readAll]

/-- Writing to a slot changes what it holds, and no other slot. -/
theorem rewrites_write
    (sound : store.Sound) (found : store.tableOf? slot = some table)
    (key : SymbolKey) (version : Nat) :
    Rewrites store (store.write slot table key version) slot
      ((store.contents table).insert key version) := by
  have inside := lt_of_tableOf? found
  have allocated := sound.lt_tables found
  have written := (sound.ordered_contents table).insert key version
  rw [write]
  split
  · next alone =>
      -- No other slot sees the table that is written in place.
      refine ⟨⟨?_, ?_⟩, readAll_eq_set inside ?_ ?_, fun _ _ => rfl⟩
      · simpa using sound.allocated
      · intro map member
        rcases List.mem_or_eq_of_mem_set member with old | rfl
        · exact sound.ordered map old
        · exact written
      · change (store.tableOf? slot).map _ = _
        rw [found]
        simp [contents, List.getElem?_set_self allocated]
      · intro other different
        change (store.tableOf? other).map _ = (store.tableOf? other).map _
        cases pointed : store.tableOf? other with
        | none => rfl
        | some shown =>
            have apart : table ≠ shown := by
              rintro rfl
              exact different (eq_of_count_le_one alone found pointed)
            simp [contents, List.getElem?_set_ne apart]
  · refine ⟨⟨?_, ?_⟩, readAll_eq_set inside ?_ ?_, ?_⟩
    · intro other member
      rw [List.length_append]
      rcases List.mem_or_eq_of_mem_set member with old | rfl
      · exact Nat.lt_add_right _ (sound.allocated other old)
      · exact Nat.lt_add_one _
    · intro map member
      rcases List.mem_append.mp member with old | new
      · exact sound.ordered map old
      · rw [List.mem_singleton.mp new]
        exact written
    · simp [read?, tableOf?, List.getElem?_set_self inside, contents]
    · intro other different
      rw [read?, read?, tableOf?, List.getElem?_set_ne (Ne.symm different),
        ← tableOf?]
      cases pointed : store.tableOf? other with
      | none => rfl
      | some shown =>
          simp [contents, List.getElem?_append_left (sound.lt_tables pointed)]
    · intro other different
      exact List.getElem?_set_ne (Ne.symm different)

theorem exists_tableOf?
    {map : VersionMap} (holds : store.read? slot = some map) :
    ∃ table, store.tableOf? slot = some table ∧ store.contents table = map := by
  rwa [read?, Option.map_eq_some_iff] at holds

theorem rewrites_raise
    (sound : store.Sound) {current : VersionMap}
    (holds : store.read? slot = some current) (entry : SymbolKey × Nat) :
    Rewrites store (store.raise slot entry) slot
      (current.raise entry.1 entry.2) := by
  obtain ⟨table, found, rfl⟩ := exists_tableOf? holds
  have write := rewrites_write sound found entry.1 entry.2
  cases present : (store.contents table).get? entry.1 with
  | none =>
      simp only [raise, found, present, VersionMap.raise]
      exact write
  | some version =>
      simp only [raise, found, present, VersionMap.raise]
      split
      · exact write
      · exact .refl sound holds

/-! ## Merging -/

theorem rewrites_foldl_raise
    (sound : store.Sound) {current : VersionMap}
    (holds : store.read? slot = some current)
    (entries : List (SymbolKey × Nat)) :
    Rewrites store
      (entries.foldl (fun soFar entry => soFar.raise slot entry) store) slot
      (entries.foldl (fun merged entry =>
        merged.raise entry.1 entry.2) current) := by
  obtain ⟨table, found, _⟩ := exists_tableOf? holds
  have inside := lt_of_tableOf? found
  induction entries generalizing store current table with
  | nil => exact .refl sound holds
  | cons entry rest induction =>
      have first := rewrites_raise sound holds entry
      have holdsNext := first.read?_self inside
      obtain ⟨moved, foundNext, _⟩ := exists_tableOf? holdsNext
      exact first.trans (induction first.sound holdsNext moved foundNext
        ‹_› (lt_of_tableOf? foundNext))

theorem rewrites_absorb
    (sound : store.Sound) {current : VersionMap}
    (holds : store.read? slot = some current) (table : Nat) :
    Rewrites store (absorb slot store table) slot
      (current.merge (store.contents table)) := by
  rw [absorb]
  split
  · next shared =>
      obtain ⟨own, found, rfl⟩ := exists_tableOf? holds
      obtain rfl := Option.some.inj (found.symm.trans shared)
      rw [(sound.ordered_contents own).merge_self]
      exact .refl sound holds
  · exact rewrites_foldl_raise sound holds _

/--
A slot absorbs tables of other slots one after another; what these hold stays
as it was.
-/
theorem rewrites_foldl_absorb
    (sound : store.Sound) {current : VersionMap}
    (holds : store.read? slot = some current) {tables : List Nat}
    (others : ∀ table ∈ tables,
      ∃ other, other ≠ slot ∧ store.tableOf? other = some table) :
    Rewrites store (tables.foldl (absorb slot) store) slot
      ((tables.map store.contents).foldl VersionMap.merge current) := by
  induction tables generalizing store current with
  | nil => exact .refl sound holds
  | cons table rest induction =>
      rw [List.forall_mem_cons] at others
      obtain ⟨own, found, _⟩ := exists_tableOf? holds
      have first := rewrites_absorb sound holds table
      have unchanged : rest.map (absorb slot store table).contents =
          rest.map store.contents := by
        apply List.map_congr_left
        intro later member
        obtain ⟨other, different, pointed⟩ := others.2 later member
        exact first.contents_eq different pointed
      have further := induction first.sound
        (first.read?_self (lt_of_tableOf? found)) (fun later member => by
          obtain ⟨other, different, pointed⟩ := others.2 later member
          exact ⟨other, different,
            (first.elsewhere other different).trans pointed⟩)
      rw [unchanged] at further
      exact first.trans further

/-! ## Steps -/

/-- A slot that does not exist has no map, and one that does has its map. -/
theorem Holds.cases (holds : store.Holds maps) (slot : Nat) :
    (store.tableOf? slot = none ∧ maps[slot]? = none) ∨
    ∃ table map, store.tableOf? slot = some table ∧ maps[slot]? = some map ∧
      (store.contents table).get? = map.numbers := by
  have here := congrArg (fun held => held[slot]?) holds
  simp only [List.getElem?_map, getElem?_readAll, read?] at here
  cases found : store.tableOf? slot with
  | none => exact .inl ⟨rfl, by simpa [found] using here⟩
  | some table =>
      rw [found, Option.map_some, Option.map_some] at here
      obtain ⟨map, chosen, same⟩ := Option.map_eq_some_iff.mp here.symm
      exact .inr ⟨table, map, rfl, chosen, same.symm⟩

theorem Holds.mapM_cases (holds : store.Holds maps) (slots : List Nat) :
    (slots.mapM store.tableOf? = none ∧
      slots.mapM (fun slot => maps[slot]?) = none) ∨
    ∃ tables chosen, slots.mapM store.tableOf? = some tables ∧
      slots.mapM (fun slot => maps[slot]?) = some chosen ∧
      tables.map (fun table => (store.contents table).get?) =
        chosen.map PlainMap.numbers := by
  induction slots with
  | nil => exact .inr ⟨[], [], rfl, rfl, rfl⟩
  | cons slot rest induction =>
      simp only [List.mapM_cons, Option.bind_eq_bind, Option.pure_def]
      rcases holds.cases slot with
        ⟨refused, also⟩ | ⟨table, map, found, chosen, same⟩
      · exact .inl (by simp [refused, also])
      · rcases induction with
          ⟨refused, also⟩ | ⟨tables, others, pointed, picked, equal⟩
        · exact .inl (by simp [found, chosen, refused, also])
        · exact .inr ⟨table :: tables, map :: others,
            by simp [found, pointed], by simp [chosen, picked],
            by simp [same, equal]⟩

theorem Holds.concat
    (holds : store.Holds maps) {table : VersionMap} {map : PlainMap}
    (held : next.readAll = store.readAll ++ [table])
    (same : table.get? = map.numbers) :
    next.Holds (maps ++ [map]) := by
  rw [Holds, held, List.map_append, List.map_append, holds,
    List.map_singleton, List.map_singleton, same]

theorem Holds.set
    (holds : store.Holds maps) {table : VersionMap} {map : PlainMap}
    (held : next.readAll = store.readAll.set slot table)
    (same : table.get? = map.numbers) :
    next.Holds (maps.set slot map) := by
  rw [Holds, held, List.map_set, List.map_set, holds, same]

/-- Setting a version and setting its number are the same. -/
theorem get?_insert_toNat
    {table : VersionMap} {map : PlainMap} (same : table.get? = map.numbers)
    (key : SymbolKey) (version : UInt32) :
    (table.insert key version.toNat).get? = (map.put key version).numbers := by
  funext other
  rw [VersionMap.get?_insert, same, PlainMap.numbers, PlainMap.numbers,
    PlainMap.put]
  split <;> rfl

/-- The number of a current version is that of the word. -/
theorem ofNat_get
    {table : VersionMap} {map : PlainMap} (same : table.get? = map.numbers)
    (key : SymbolKey) :
    UInt32.ofNat (table.get key) = (map key).getD 0 := by
  rw [VersionMap.get, same, PlainMap.numbers]
  cases map key with
  | none => rfl
  | some version => exact UInt32.ofNat_toNat

theorem get?_mergeAll_toNat
    {tables : List VersionMap} (ordered : ∀ table ∈ tables, table.Ordered)
    {chosen : List PlainMap}
    (same : tables.map VersionMap.get? = chosen.map PlainMap.numbers) :
    (VersionMap.mergeAll tables).get? = (PlainMap.largest chosen).numbers := by
  funext key
  rw [VersionMap.get?_mergeAll ordered, PlainMap.numbers_largest]
  have found := congrArg (List.filterMap (fun map => map key)) same
  rw [List.filterMap_map, List.filterMap_map] at found
  exact congrArg List.max? found

/-- A slot that is added and then written holds what was written. -/
theorem Rewrites.readAll_of_share
    {map : VersionMap}
    (rewrites : Rewrites (store.share table) next store.slots.length map) :
    next.readAll = store.readAll ++ [map] := by
  have length : store.slots.length = store.readAll.length := by simp [readAll]
  rw [rewrites.held, readAll_share, length]
  simp

theorem rewrites_bump
    (sound : store.Sound) (found : store.tableOf? slot = some table)
    (key : SymbolKey) (version : Nat) :
    Rewrites (store.share table)
      ((store.share table).write store.slots.length table key version)
      store.slots.length ((store.contents table).insert key version) :=
  rewrites_write (sound.share (sound.lt_tables found))
    (tableOf?_share_self store table) key version

theorem rewrites_merge
    (sound : store.Sound) {slots : List Nat} {first : Nat} {rest : List Nat}
    (found : slots.mapM store.tableOf? = some (first :: rest)) :
    Rewrites (store.share first)
      (rest.foldl (absorb store.slots.length) (store.share first))
      store.slots.length
      (.mergeAll ((first :: rest).map store.contents)) := by
  have pointed : ∀ table ∈ first :: rest,
      ∃ slot, store.tableOf? slot = some table := by
    intro table member
    obtain ⟨slot, _, same⟩ := (mem_iff_of_mapM found table).mp member
    exact ⟨slot, same⟩
  rw [List.forall_mem_cons] at pointed
  obtain ⟨slot, same⟩ := pointed.1
  refine rewrites_foldl_absorb (sound.share (sound.lt_tables same)) ?_ ?_
  · rw [read?, tableOf?_share_self]
    rfl
  · intro table member
    obtain ⟨other, found⟩ := pointed.2 table member
    have inside := lt_of_tableOf? found
    exact ⟨other, Nat.ne_of_lt inside,
      (tableOf?_share_of_lt inside first).trans found⟩

/-- A step does to the slots what it does to plain maps, or both refuse it. -/
theorem perform_cases
    (sound : store.Sound) (holds : store.Holds maps) (overflow : Overflow)
    (step : SlotStep) :
    (store.performWith overflow step = none ∧
      PlainMap.perform overflow maps step = none) ∨
    ∃ minted next after, store.performWith overflow step =
        some (minted, next) ∧
      PlainMap.perform overflow maps step = some (minted, after) ∧
      next.Sound ∧ next.Holds after := by
  cases step with
  | new =>
      exact .inr ⟨none, _, _, rfl, rfl, sound.addTable List.Pairwise.nil,
        holds.concat (readAll_addTable sound .empty) rfl⟩
  | clone slot =>
      rcases holds.cases slot with
        ⟨refused, also⟩ | ⟨table, map, found, chosen, same⟩
      · exact .inl (by simp [performWith, PlainMap.perform, refused, also])
      · exact .inr ⟨none, _, _, by simp [performWith, found],
          by simp [PlainMap.perform, chosen],
          sound.share (sound.lt_tables found),
          holds.concat (readAll_share store table) same⟩
  | put slot key version =>
      rcases holds.cases slot with
        ⟨refused, also⟩ | ⟨table, map, found, chosen, same⟩
      · exact .inl (by simp [performWith, PlainMap.perform, refused, also])
      · have rewrites := rewrites_write sound found key version.toNat
        exact .inr ⟨none, _, _, by simp [performWith, found],
          by simp [PlainMap.perform, chosen], rewrites.sound,
          holds.set rewrites.held (get?_insert_toNat same key version)⟩
  | bump slot key =>
      rcases holds.cases slot with
        ⟨refused, also⟩ | ⟨table, map, found, chosen, same⟩
      · exact .inl (by simp [performWith, PlainMap.perform, refused, also])
      · -- Both count on from the same word, and stop together.
        have current := ofNat_get same key
        cases counted : overflow.next? ((map key).getD 0) with
        | none =>
            exact .inl (by simp [performWith, PlainMap.perform, found, chosen,
              current, counted])
        | some version =>
            have rewrites := rewrites_bump sound found key version.toNat
            exact .inr ⟨some version.toNat, _, _,
              by simp [performWith, found, current, counted],
              by simp [PlainMap.perform, chosen, counted], rewrites.sound,
              holds.concat rewrites.readAll_of_share
                (get?_insert_toNat same key version)⟩
  | merge slots =>
      rcases holds.mapM_cases slots with
        ⟨refused, also⟩ | ⟨tables, chosen, found, picked, same⟩
      · exact .inl (by simp [performWith, PlainMap.perform, refused, also])
      · cases tables with
        | nil =>
            obtain rfl : chosen = [] := by simpa using same.symm
            have plainly : PlainMap.perform overflow maps (.merge slots) =
                some (none, maps ++ [PlainMap.nothing]) := by
              simp only [PlainMap.perform, picked]
              rfl
            exact .inr ⟨none, store.addTable .empty, _,
              by simp [performWith, found], plainly,
              sound.addTable List.Pairwise.nil,
              holds.concat (readAll_addTable sound .empty) rfl⟩
        | cons first rest =>
            have rewrites := rewrites_merge sound found
            have ordered : ∀ map ∈ (first :: rest).map store.contents,
                map.Ordered := by
              intro map member
              obtain ⟨table, _, rfl⟩ := List.mem_map.mp member
              exact sound.ordered_contents table
            have merged := get?_mergeAll_toNat ordered
              (List.map_map.trans same)
            exact .inr ⟨none, _, _, by simp [performWith, found],
              by simp [PlainMap.perform, picked], rewrites.sound,
              holds.concat rewrites.readAll_of_share merged⟩

/-- What setting a version does to a store. -/
theorem rewrites_of_put
    (sound : store.Sound) {overflow : Overflow} {key : SymbolKey}
    {version : UInt32} {minted : Option Nat}
    (done : store.performWith overflow (.put slot key version) =
      some (minted, next)) :
    ∃ map, Rewrites store next slot map := by
  simp only [performWith, Option.bind_eq_bind, Option.bind_eq_some_iff,
    Option.pure_def, Option.some.injEq, Prod.mk.injEq] at done
  obtain ⟨table, found, _, rfl⟩ := done
  exact ⟨_, rewrites_write sound found key version.toNat⟩

/-- What a bump does to a store. -/
theorem readAll_of_bump
    (sound : store.Sound) {overflow : Overflow} {key : SymbolKey}
    {minted : Option Nat}
    (done : store.performWith overflow (.bump slot key) =
      some (minted, next)) :
    ∃ map, next.readAll = store.readAll ++ [map] := by
  simp only [performWith, Option.bind_eq_bind, Option.bind_eq_some_iff,
    Option.pure_def, Option.some.injEq, Prod.mk.injEq] at done
  obtain ⟨table, found, version, _, _, rfl⟩ := done
  exact ⟨_, (rewrites_bump sound found key _).readAll_of_share⟩

theorem read?_of_concat
    {map : VersionMap} (held : next.readAll = store.readAll ++ [map])
    {other : Nat} (different : other ≠ store.slots.length) :
    next.read? other = store.read? other := by
  have length : store.readAll.length = store.slots.length := by simp [readAll]
  rw [← getElem?_readAll, held, ← getElem?_readAll store]
  rcases Nat.lt_or_gt_of_ne different with inside | outside
  · exact List.getElem?_append_left (length ▸ inside)
  · rw [List.getElem?_eq_none (by simp; omega),
      List.getElem?_eq_none (by omega)]

/-! ## Scripts -/

/-- Perform steps in order, with the answer to each. -/
def performAll (overflow : Overflow) (store : VersionSlots) :
    List SlotStep → Option (List (Option Nat) × VersionSlots)
  | [] => some ([], store)
  | step :: rest => do
    let (minted, next) ← store.performWith overflow step
    let (later, final) ← next.performAll overflow rest
    return (minted :: later, final)

theorem performAll_cases
    (sound : store.Sound) (holds : store.Holds maps) (overflow : Overflow)
    (steps : List SlotStep) :
    (store.performAll overflow steps = none ∧
      PlainMap.performAll overflow maps steps = none) ∨
    ∃ minted final after, store.performAll overflow steps =
        some (minted, final) ∧
      PlainMap.performAll overflow maps steps = some (minted, after) ∧
      final.Sound ∧ final.Holds after := by
  induction steps generalizing store maps with
  | nil => exact .inr ⟨[], store, maps, rfl, rfl, sound, holds⟩
  | cons step rest induction =>
      rw [performAll, PlainMap.performAll]
      rcases perform_cases sound holds overflow step with
        ⟨refused, plainly⟩ | ⟨minted, next, after, done, plainly, kept, held⟩
      · exact .inl (by simp [refused, plainly])
      · rcases induction kept held with
          ⟨refused, also⟩ | ⟨later, final, last, further, also, stays, holds⟩
        · exact .inl (by simp [done, plainly, refused, also])
        · exact .inr ⟨minted :: later, final, last, by simp [done, further],
            by simp [plainly, also], stays, holds⟩

theorem sound_empty : empty.Sound :=
  ⟨by simp [empty], by simp [empty]⟩

theorem Sound.ordered_readAll (sound : store.Sound) :
    ∀ map ∈ store.readAll, map.Ordered := by
  intro map member
  obtain ⟨table, _, rfl⟩ := List.mem_map.mp member
  exact sound.ordered_contents table

/-- Stores whose slots have the same for every key hold the same maps. -/
theorem readAll_eq_of_holds
    (sound : store.Sound) (alsoSound : next.Sound)
    (holds : store.Holds maps) (alsoHolds : next.Holds maps) :
    store.readAll = next.readAll :=
  VersionMap.eq_of_map_get? sound.ordered_readAll alsoSound.ordered_readAll
    (holds.trans alsoHolds.symm)

/-- The slots of a merge may be named in any order, and more than once. -/
theorem readAll_merge_congr
    (sound : store.Sound) (holds : store.Holds maps) (overflow : Overflow)
    {first second : List Nat} (same : ∀ slot, slot ∈ first ↔ slot ∈ second) :
    (store.performWith overflow (.merge first)).map
        (fun done => done.2.readAll) =
      (store.performWith overflow (.merge second)).map
        (fun done => done.2.readAll) := by
  have plainly := PlainMap.perform_merge_congr overflow maps same
  rcases perform_cases sound holds overflow (.merge first) with
    ⟨refused, none⟩ | ⟨_, _, _, done, made, kept, held⟩
  · rcases perform_cases sound holds overflow (.merge second) with
      ⟨alsoRefused, _⟩ | ⟨_, _, _, _, made, _, _⟩
    · rw [refused, alsoRefused]
    · simp [none, made] at plainly
  · rcases perform_cases sound holds overflow (.merge second) with
      ⟨_, none⟩ | ⟨_, _, _, alsoDone, alsoMade, alsoKept, alsoHeld⟩
    · simp [none, made] at plainly
    · rw [made, alsoMade, Option.some.injEq, Prod.mk.injEq] at plainly
      rw [done, alsoDone, Option.map_some, Option.map_some]
      exact congrArg some
        (readAll_eq_of_holds kept alsoKept held (plainly.2 ▸ alsoHeld))

end VersionSlots

/--
Whatever a script does, and whether a run that counts beyond the largest word
stops or wraps, its slots hold what plain maps hold after the same script, and
it answers the same; where a merge is the largest version of every key, over
the maps that have the key.  At its end, the entries of a slot are in order and
are what it has for its keys, slots at one table hold the same, an insert
changes no slot but its own and a bump none but the one it adds, and it does
not matter to a merge in which order its slots are named, or how often.
-/
theorem shared_maps_hold_plain_maps
    (overflow : Overflow) (steps : List SlotStep) :
    (VersionSlots.empty.performAll overflow steps).map
        (fun done => (done.1, done.2.readAll.map VersionMap.get?)) =
      (PlainMap.performAll overflow [] steps).map
        (fun done => (done.1, done.2.map PlainMap.numbers)) ∧
    ∀ minted store,
      VersionSlots.empty.performAll overflow steps = some (minted, store) →
      (∀ map ∈ store.readAll, map.Ordered ∧ ∀ key version,
        (key, version) ∈ map.entries ↔ map.get? key = some version) ∧
      (∀ first second, store.shared first second = true →
        store.read? first = store.read? second) ∧
      (∀ slot key version minted next,
        store.performWith overflow (.put slot key version) =
          some (minted, next) →
        ∀ other, other ≠ slot → next.read? other = store.read? other) ∧
      (∀ slot key minted next,
        store.performWith overflow (.bump slot key) = some (minted, next) →
        ∀ other, other ≠ store.slots.length →
          next.read? other = store.read? other) ∧
      ∀ first second : List Nat, (∀ slot, slot ∈ first ↔ slot ∈ second) →
        (store.performWith overflow (.merge first)).map
            (fun done => done.2.readAll) =
          (store.performWith overflow (.merge second)).map
            (fun done => done.2.readAll) := by
  have nothing : VersionSlots.empty.Holds [] := rfl
  have cases := VersionSlots.performAll_cases VersionSlots.sound_empty nothing
    overflow steps
  constructor
  · rcases cases with
      ⟨refused, plainly⟩ | ⟨minted, final, after, done, plainly, _, holds⟩
    · rw [refused, plainly]
      rfl
    · rw [done, plainly, Option.map_some, Option.map_some, holds]
  · intro minted store done
    obtain ⟨maps, sound, holds⟩ :
        ∃ maps, store.Sound ∧ store.Holds maps := by
      rcases cases with
        ⟨refused, _⟩ | ⟨_, final, after, also, _, sound, holds⟩
      · simp [refused] at done
      · rw [also, Option.some.injEq, Prod.mk.injEq] at done
        exact done.2 ▸ ⟨after, sound, holds⟩
    refine ⟨?_, ?_, ?_, ?_, fun first second same =>
      VersionSlots.readAll_merge_congr sound holds overflow same⟩
    · intro map member
      have ordered := sound.ordered_readAll map member
      exact ⟨ordered, ordered.mem_entries_iff⟩
    · intro first second shared
      rw [VersionSlots.shared, beq_iff_eq] at shared
      rw [VersionSlots.read?, VersionSlots.read?, shared]
    · intro slot key version _ next performed other different
      obtain ⟨map, rewrites⟩ := VersionSlots.rewrites_of_put sound performed
      exact rewrites.read?_of_ne different
    · intro slot key _ next performed other different
      obtain ⟨map, held⟩ := VersionSlots.readAll_of_bump sound performed
      exact VersionSlots.read?_of_concat held different

/-- Two keys of one sort. -/
def heightKey : SymbolKey := ⟨"height!0", .bitVec 8⟩

/-- The other one. -/
def widthKey : SymbolKey := ⟨"width!1", .bitVec 8⟩

/--
A map and its copy share a table while they are merged with a bumped map; then
the copy is written to, and the bumped key is set to the largest word and
bumped again.
-/
def sharingScript : List SlotStep :=
  [.new, .insert 0 heightKey 2, .clone 0, .bump 1 widthKey, .merge [0, 1, 2, 0],
    .insert 1 heightKey 5, .insert 2 widthKey 4294967295, .bump 2 widthKey]

/--
Only the copy has changed, and the merged map has both keys.  The last bump
wraps, or the run has stopped.
-/
theorem written_copy_leaves_the_rest :
    VersionSlots.empty.performAll .stops sharingScript = none ∧
    ∃ minted store,
      VersionSlots.empty.performAll .wraps sharingScript =
        some (minted, store) ∧
      minted = [none, none, none, some 1, none, none, none, some 0] ∧
      (∀ map ∈ store.readAll, map.Ordered) ∧
      store.readAll = [⟨[(heightKey, 2)]⟩, ⟨[(heightKey, 5)]⟩,
        ⟨[(heightKey, 2), (widthKey, 4294967295)]⟩,
        ⟨[(heightKey, 2), (widthKey, 1)]⟩,
        ⟨[(heightKey, 2), (widthKey, 0)]⟩] := by
  refine ⟨by decide +kernel, ?_⟩
  cases done : VersionSlots.empty.performAll .wraps sharingScript with
  | none => exact absurd done (by decide +kernel)
  | some result =>
      obtain ⟨minted, store⟩ := result
      have parts :=
        (shared_maps_hold_plain_maps .wraps sharingScript).2 _ _ done
      have shown : (VersionSlots.empty.performAll .wraps sharingScript).map
          (fun result => (result.1, result.2.readAll)) =
          some ([none, none, none, some 1, none, none, none, some 0],
            [⟨[(heightKey, 2)]⟩, ⟨[(heightKey, 5)]⟩,
              ⟨[(heightKey, 2), (widthKey, 4294967295)]⟩,
              ⟨[(heightKey, 2), (widthKey, 1)]⟩,
              ⟨[(heightKey, 2), (widthKey, 0)]⟩]) := by
        decide +kernel
      rw [done, Option.map_some, Option.some.injEq, Prod.mk.injEq] at shown
      exact ⟨minted, store, rfl, shown.1,
        fun map member => (parts.1 map member).1, shown.2⟩

end FlowWitness.Exploration
