import FlowWitness.Exploration.VersionSlots
import FlowWitness.Proofs.Exploration.Versions
import Mathlib.Data.UInt

/-!
# Plain maps

A plain map is a function from keys to versions, and a plain script keeps one
of them for every slot, with nothing shared: an insert replaces the map of its
slot, a bump and a merge add a map, and a merge takes the largest version that
any of its maps has for a key.

The versions of a plain map are words, and it is seen by their numbers.  A
version map whose entries are in order is written down in the one way there is,
given what it has for each key: inserting puts a number, and merging takes the
largest ones.
-/

namespace FlowWitness

/-! ## Choosing for every item of a list -/

section

variable {Item Result : Type} {choose : Item → Option Result}
  {items : List Item}

theorem mapM_eq_some_iff {results : List Result} :
    items.mapM choose = some results ↔
      items.map choose = results.map some := by
  induction items generalizing results with
  | nil => cases results <;> simp
  | cons item rest induction =>
      have parts : (item :: rest).mapM choose = some results ↔
          ∃ first later, choose item = some first ∧
            rest.mapM choose = some later ∧ first :: later = results := by
        simp [List.mapM_cons, Option.bind_eq_some_iff]
      rw [parts]
      simp only [induction]
      constructor
      · rintro ⟨first, later, found, others, rfl⟩
        rw [List.map_cons, found, others, List.map_cons]
      · intro same
        cases results with
        | nil => simp at same
        | cons first later =>
            rw [List.map_cons, List.map_cons, List.cons.injEq] at same
            exact ⟨first, later, same.1, same.2, rfl⟩

theorem mem_iff_of_mapM
    {results : List Result} (found : items.mapM choose = some results)
    (result : Result) :
    result ∈ results ↔ ∃ item ∈ items, choose item = some result := by
  have listed : some result ∈ results.map some ↔ result ∈ results := by simp
  rw [← listed, ← mapM_eq_some_iff.mp found, List.mem_map]

theorem exists_mapM_iff :
    (∃ results, items.mapM choose = some results) ↔
      ∀ item ∈ items, ∃ result, choose item = some result := by
  constructor
  · rintro ⟨results, found⟩ item member
    have chosen : choose item ∈ results.map some := by
      rw [← mapM_eq_some_iff.mp found]
      exact List.mem_map_of_mem member
    obtain ⟨result, _, same⟩ := List.mem_map.mp chosen
    exact ⟨result, same.symm⟩
  · intro chosen
    induction items with
    | nil => exact ⟨[], rfl⟩
    | cons item rest induction =>
        rw [List.forall_mem_cons] at chosen
        obtain ⟨first, found⟩ := chosen.1
        obtain ⟨later, others⟩ := induction chosen.2
        exact ⟨first :: later, by simp [found, others]⟩

end

end FlowWitness

namespace FlowWitness.Exploration

/-! ## Plain maps -/

/-- A map on its own: the version of every key it has. -/
abbrev PlainMap := SymbolKey → Option UInt32

namespace PlainMap

/-- The map without keys. -/
def nothing : PlainMap := fun _ => none

/-- The map with the version of one key set. -/
def put (map : PlainMap) (key : SymbolKey) (version : UInt32) : PlainMap :=
  fun other => if other = key then some version else map other

/-- The largest version that any of the maps has for each key. -/
def largest (maps : List PlainMap) : PlainMap :=
  fun key => (maps.filterMap (fun map => map key)).max?

/-- The numbers of the versions. -/
def numbers (map : PlainMap) (key : SymbolKey) : Option Nat :=
  (map key).map UInt32.toNat

/-- Perform a step on maps that share nothing. -/
def perform (overflow : Overflow) (maps : List PlainMap) :
    SlotStep → Option (Option Nat × List PlainMap)
  | .new => some (none, maps ++ [nothing])
  | .clone slot => do
    let map ← maps[slot]?
    return (none, maps ++ [map])
  | .put slot key version => do
    let map ← maps[slot]?
    return (none, maps.set slot (map.put key version))
  | .bump slot key => do
    let map ← maps[slot]?
    let next ← overflow.next? ((map key).getD 0)
    return (some next.toNat, maps ++ [map.put key next])
  | .merge slots => do
    let chosen ← slots.mapM (fun slot => maps[slot]?)
    return (none, maps ++ [largest chosen])

/-- Perform steps in order, with the answer to each. -/
def performAll (overflow : Overflow) (maps : List PlainMap) :
    List SlotStep → Option (List (Option Nat) × List PlainMap)
  | [] => some ([], maps)
  | step :: rest => do
    let (minted, next) ← perform overflow maps step
    let (later, final) ← performAll overflow next rest
    return (minted :: later, final)

theorem max?_map_toNat (versions : List UInt32) :
    (versions.map UInt32.toNat).max? = versions.max?.map UInt32.toNat := by
  have folded : ∀ (rest : List UInt32) (first : UInt32),
      (rest.map UInt32.toNat).foldl max first.toNat =
        (rest.foldl max first).toNat := by
    intro rest
    induction rest with
    | nil => exact fun _ => rfl
    | cons second rest induction =>
        intro first
        rw [List.map_cons, List.foldl_cons, ← UInt32.toNat_max, induction]
        rfl
  cases versions with
  | nil => rfl
  | cons first rest => exact congrArg some (folded rest first)

/-- The numbers of the largest versions are the largest numbers. -/
theorem numbers_largest (maps : List PlainMap) (key : SymbolKey) :
    (largest maps).numbers key =
      (maps.filterMap (fun map => map.numbers key)).max? := by
  rw [numbers, largest, ← max?_map_toNat, List.map_filterMap]
  rfl

theorem numbers_injective : Function.Injective numbers := by
  intro first second same
  funext key
  exact Option.map_injective (fun _ _ => UInt32.toNat_inj.mp)
    (congrFun same key)

/-- Neither order nor repetition matters to the largest versions. -/
theorem largest_congr
    {first second : List PlainMap}
    (same : ∀ map, map ∈ first ↔ map ∈ second) :
    largest first = largest second := by
  apply numbers_injective
  funext key
  rw [numbers_largest, numbers_largest]
  apply Option.ext
  intro version
  simp only [List.max?_eq_some_iff, List.mem_filterMap, same]

/-- Nor do they matter to a merge of slots. -/
theorem perform_merge_congr
    (overflow : Overflow) (maps : List PlainMap) {first second : List Nat}
    (same : ∀ slot, slot ∈ first ↔ slot ∈ second) :
    perform overflow maps (.merge first) =
      perform overflow maps (.merge second) := by
  have both : (∃ chosen, first.mapM (fun slot => maps[slot]?) = some chosen) ↔
      ∃ chosen, second.mapM (fun slot => maps[slot]?) = some chosen := by
    rw [exists_mapM_iff, exists_mapM_iff]
    simp only [same]
  rw [perform, perform]
  cases ofFirst : first.mapM (fun slot => maps[slot]?) with
  | none =>
      cases ofSecond : second.mapM (fun slot => maps[slot]?) with
      | none => rfl
      | some chosen => simp [ofFirst, ofSecond] at both
  | some chosen =>
      obtain ⟨others, ofSecond⟩ := both.mp ⟨chosen, ofFirst⟩
      have members : ∀ map, map ∈ chosen ↔ map ∈ others := by
        intro map
        rw [mem_iff_of_mapM ofFirst, mem_iff_of_mapM ofSecond]
        simp only [same]
      simp [ofSecond, largest_congr members]

end PlainMap

/-! ## What a map has for a key -/

namespace VersionMap

theorem get?_insert
    (map : VersionMap) (key other : SymbolKey) (version : Nat) :
    (map.insert key version).get? other =
      if other = key then some version else map.get? other := by
  split
  · next same =>
      subst other
      exact lookup_place_self key version map.entries
  · next different => exact lookup_place_of_ne different version map.entries

theorem get?_raise
    (map : VersionMap) (key other : SymbolKey) (version : Nat) :
    (map.raise key version).get? other =
      if other = key then max (map.get? other) (some version)
      else map.get? other := by
  rw [raise]
  split
  · next absent =>
      rw [get?_insert]
      by_cases same : other = key
      · simp [same, absent]
      · simp [same]
  · next current present =>
      by_cases same : other = key
      · subst other
        rw [if_pos rfl, present, Option.max_some_some]
        split
        · next less =>
            rw [get?_insert, if_pos rfl, Nat.max_eq_right (Nat.le_of_lt less)]
        · next notLess =>
            rw [present, Nat.max_eq_left (Nat.le_of_not_lt notLess)]
      · rw [if_neg same]
        split
        · rw [get?_insert, if_neg same]
        · rfl

/-- Entries in order say of a key what the first entry for it says. -/
theorem get?_foldl_raise
    {entries : List (SymbolKey × Nat)}
    (ordered : entries.Pairwise (fun first second =>
      first.1.before second.1 = true))
    (map : VersionMap) (key : SymbolKey) :
    (entries.foldl (fun merged entry =>
        merged.raise entry.1 entry.2) map).get? key =
      max (map.get? key) (lookup key entries) := by
  induction entries generalizing map with
  | nil => simp [lookup]
  | cons entry rest induction =>
      rcases entry with ⟨other, version⟩
      rw [List.pairwise_cons] at ordered
      rw [List.foldl_cons, induction ordered.2, get?_raise, lookup]
      by_cases same : other = key
      · subst other
        have unlisted : lookup key rest = none := by
          rw [Option.eq_none_iff_forall_ne_some]
          intro later found
          exact SymbolKey.before_irrefl key
            (ordered.1 _ (mem_of_lookup found))
        simp [unlisted]
      · simp [same, Ne.symm same]

theorem get?_merge
    (first : VersionMap) {second : VersionMap} (ordered : second.Ordered)
    (key : SymbolKey) :
    (first.merge second).get? key = max (first.get? key) (second.get? key) :=
  get?_foldl_raise ordered first key

theorem foldl_max_eq_max?
    (versions : List (Option Nat)) (first : Option Nat) :
    versions.foldl max first = ((first :: versions).filterMap id).max? := by
  induction versions generalizing first with
  | nil => cases first <;> rfl
  | cons second rest induction =>
      rw [List.foldl_cons, induction]
      cases first with
      | none => cases second <;> rfl
      | some least => cases second <;> rfl

theorem get?_foldl_merge
    {rest : List VersionMap} (ordered : ∀ map ∈ rest, map.Ordered)
    (first : VersionMap) (key : SymbolKey) :
    (rest.foldl merge first).get? key =
      (rest.map (fun map => map.get? key)).foldl max (first.get? key) := by
  induction rest generalizing first with
  | nil => rfl
  | cons second rest induction =>
      rw [List.forall_mem_cons] at ordered
      rw [List.foldl_cons, induction ordered.2, get?_merge first ordered.1]
      rfl

/-- A merged map has the largest versions of its parts. -/
theorem get?_mergeAll
    {maps : List VersionMap} (ordered : ∀ map ∈ maps, map.Ordered)
    (key : SymbolKey) :
    (mergeAll maps).get? key =
      (maps.filterMap (fun map => map.get? key)).max? := by
  cases maps with
  | nil => rfl
  | cons first rest =>
      rw [List.forall_mem_cons] at ordered
      rw [mergeAll, get?_foldl_merge ordered.2, foldl_max_eq_max?]
      change (((first :: rest).map (fun map => map.get? key)).filterMap
        id).max? = _
      rw [List.filterMap_map]
      rfl

/-! ## Order -/

theorem Ordered.mem_entries_iff
    {map : VersionMap} (ordered : map.Ordered)
    (key : SymbolKey) (version : Nat) :
    (key, version) ∈ map.entries ↔ map.get? key = some version := by
  exact ⟨ordered.get?_of_mem, mem_of_lookup⟩

/-- A map in order has nothing to learn from itself. -/
theorem Ordered.merge_self {map : VersionMap} (ordered : map.Ordered) :
    map.merge map = map := by
  have learns : ∀ entries : List (SymbolKey × Nat),
      (∀ entry ∈ entries, map.get? entry.1 = some entry.2) →
      entries.foldl (fun merged entry =>
        merged.raise entry.1 entry.2) map = map := by
    intro entries
    induction entries with
    | nil => exact fun _ => rfl
    | cons entry rest induction =>
        intro known
        rw [List.forall_mem_cons] at known
        rw [List.foldl_cons, raise, known.1]
        simpa using induction known.2
  exact learns map.entries (fun _ member => ordered.get?_of_mem member)

/-- Maps in order that have the same for every key are the same. -/
theorem Ordered.eq_of_get?
    {first second : VersionMap} (firstOrdered : first.Ordered)
    (secondOrdered : second.Ordered) (same : first.get? = second.get?) :
    first = second := by
  have listed : first.entries.Perm second.entries := by
    rw [List.perm_ext_iff_of_nodup firstOrdered.nodup_entries
      secondOrdered.nodup_entries]
    rintro ⟨key, version⟩
    rw [firstOrdered.mem_entries_iff, secondOrdered.mem_entries_iff, same]
  have entries := listed.eq_of_pairwise (fun _ _ _ _ before after =>
    absurd (SymbolKey.before_trans before after)
      (SymbolKey.before_irrefl _)) firstOrdered secondOrdered
  cases first
  cases second
  exact congrArg VersionMap.mk entries

theorem eq_of_map_get?
    {first second : List VersionMap}
    (firstOrdered : ∀ map ∈ first, map.Ordered)
    (secondOrdered : ∀ map ∈ second, map.Ordered)
    (same : first.map get? = second.map get?) :
    first = second := by
  induction first generalizing second with
  | nil => simpa [eq_comm] using same
  | cons map rest induction =>
      cases second with
      | nil => simp at same
      | cons other others =>
          rw [List.forall_mem_cons] at firstOrdered secondOrdered
          rw [List.map_cons, List.map_cons, List.cons.injEq] at same
          rw [firstOrdered.1.eq_of_get? secondOrdered.1 same.1,
            induction firstOrdered.2 secondOrdered.2 same.2]

end VersionMap

end FlowWitness.Exploration
