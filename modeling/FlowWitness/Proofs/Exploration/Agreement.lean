import FlowWitness.Proofs.Exploration.Naming
import FlowWitness.Proofs.Exploration.Versions

/-!
# Valuations that agree on the past

At any moment of a search, the markers of the visits made so far and the
versions minted so far are fixed, and everything else is still free.  Two
valuations agree up to that moment if they give the same to what is fixed.

A valuation can then be changed without touching the past: the marker of the
next visit can be set either way, a version that is not minted yet can be
given any value, and all versions from a moment on can be made to repeat the
values of that moment.
-/

namespace FlowWitness.Exploration

open FlowWitness.Graph
open FlowWitness.Program
open FlowWitness.Smt

/-! ## Environments that read the same -/

/-- A variable reads the same where the current version of its symbol does. -/
theorem read_environmentOf_congr
    {first second : Valuation} {firstVersions secondVersions : VersionMap}
    {target : Variable}
    (same : ∀ key : SymbolKey, key.name = target.stem →
      first.read (key.versionName (firstVersions.get key)) key.sort =
        second.read (key.versionName (secondVersions.get key)) key.sort) :
    (environmentOf first firstVersions).read target =
      (environmentOf second secondVersions).read target := by
  cases shape : target.dataType with
  | boolean =>
      have reads := same ⟨target.stem, .bool⟩ rfl
      simpa [Environment.read, shape, environmentOf, currentName,
        Valuation.read] using reads
  | integer signed bits =>
      have reads := same ⟨target.stem, .bitVec bits⟩ rfl
      simpa [Environment.read, shape, environmentOf, currentName,
        Valuation.read] using reads
  | float exponentBits mantissaBits => simp [Environment.read, shape]

/-! ## Agreement -/

/--
The second valuation gives what the first gives to the markers of the visits
made and to the versions minted so far.
-/
structure AgreesUpTo (merged : List BlockId) (versions : VersionMap)
    (first second : Valuation) : Prop where
  markers : ∀ block visit, visit < merged.count block →
    second.truth (markerName block visit) =
      first.truth (markerName block visit)
  symbols : ∀ (key : SymbolKey) (version : Nat), version ≤ versions.get key →
    second.read (key.versionName version) key.sort =
      first.read (key.versionName version) key.sort

namespace AgreesUpTo

variable {merged : List BlockId} {versions : VersionMap}
  {first second third : Valuation}

theorem refl (merged : List BlockId) (versions : VersionMap)
    (valuation : Valuation) :
    AgreesUpTo merged versions valuation valuation :=
  ⟨fun _ _ _ => rfl, fun _ _ _ => rfl⟩

theorem trans
    (left : AgreesUpTo merged versions first second)
    (right : AgreesUpTo merged versions second third) :
    AgreesUpTo merged versions first third where
  markers block visit past :=
    (right.markers block visit past).trans (left.markers block visit past)
  symbols key version past :=
    (right.symbols key version past).trans (left.symbols key version past)

/-- Agreement up to a moment is agreement up to every earlier one. -/
theorem mono
    {later : List BlockId} {laterVersions : VersionMap}
    (agreement : AgreesUpTo later laterVersions first second)
    (visits : ∀ block, merged.count block ≤ later.count block)
    (below : ∀ key, versions.get key ≤ laterVersions.get key) :
    AgreesUpTo merged versions first second where
  markers block visit past :=
    agreement.markers block visit (Nat.lt_of_lt_of_le past (visits block))
  symbols key version past :=
    agreement.symbols key version (Nat.le_trans past (below key))

theorem read_environmentOf
    (agreement : AgreesUpTo merged versions first second)
    (target : Variable) :
    (environmentOf second versions).read target =
      (environmentOf first versions).read target :=
  read_environmentOf_congr
    (fun key _ => agreement.symbols key _ (Nat.le_refl _))

/-- An environment that agrees with one of them agrees with the other. -/
theorem agreeOn
    (agreement : AgreesUpTo merged versions first second)
    {scope : List Variable} {environment : Environment}
    (agrees : Environment.AgreeOn scope environment
      (environmentOf first versions)) :
    Environment.AgreeOn scope environment
      (environmentOf second versions) := by
  intro target member
  rw [agreement.read_environmentOf target]
  exact agrees target member

end AgreesUpTo

end FlowWitness.Exploration

namespace FlowWitness.Smt.Valuation

open FlowWitness.Exploration
open FlowWitness.Graph

/-! ## Setting what is still free -/

/-- The marker of the next visit is free. -/
theorem agreesUpTo_withMarker
    (valuation : Valuation) {merged : List BlockId} {block : BlockId}
    (own : ∀ other ∈ merged, other.graph = block.graph)
    (versions : VersionMap) (truth : Bool) :
    AgreesUpTo merged versions valuation
      (valuation.withValue (markerName block (merged.count block))
        (.bool truth)) where
  markers := by
    intro other visit past
    apply truth_withValue_of_ne
    intro same
    rcases markerName_injective same with ⟨places, visits⟩
    have member : other ∈ merged :=
      List.count_pos_iff.mp (Nat.zero_lt_of_lt past)
    have blocks : other = block := by
      have graphs := own other member
      cases other
      cases block
      simp_all
    subst other
    omega
  symbols key version _ :=
    read_withValue_of_ne valuation _
      (Or.inl (versionName_ne_markerName key version _ _))

/-- A version that is not minted yet is free. -/
theorem agreesUpTo_withVersion
    (valuation : Valuation) (merged : List BlockId) {versions : VersionMap}
    {key : SymbolKey} {version : Nat} (fresh : versions.get key < version)
    {value : Value} (sorted : value.sort = key.sort) :
    AgreesUpTo merged versions valuation
      (valuation.withValue (key.versionName version) value) where
  markers block visit _ :=
    truth_withValue_of_ne valuation _
      (versionName_ne_markerName key version block visit).symm
  symbols := by
    intro other otherVersion past
    apply read_withValue_of_ne
    by_cases names : other.versionName otherVersion = key.versionName version
    · refine Or.inr (fun sorts => ?_)
      rcases SymbolKey.versionName_injective names with ⟨stems, rfl⟩
      have keys : other = key := by
        cases other
        cases key
        simp_all
      subst other
      omega
    · exact Or.inl names

/-! ## Repeating the values of a moment -/

/-- The name of the version of the moment, for the name of a later version. -/
def delayedName (versions : VersionMap) (sort : SmtSort) (name : String) :
    String :=
  match readNumbered? '@' name with
  | some (stem, version) =>
    let key : SymbolKey := ⟨stem, sort⟩
    key.versionName (min version (versions.get key))
  | none => name

/-- Every version from the moment on with the value of the moment. -/
def delayed (valuation : Valuation) (versions : VersionMap) : Valuation where
  truth name := valuation.truth (delayedName versions .bool name)
  word name width :=
    valuation.word (delayedName versions (.bitVec width) name) width

theorem delayedName_versionName
    (versions : VersionMap) (key : SymbolKey) (version : Nat) :
    delayedName versions key.sort (key.versionName version) =
      key.versionName (min version (versions.get key)) := by
  simp [delayedName, readNumbered?_versionName]

theorem read_delayed
    (valuation : Valuation) (versions : VersionMap) (key : SymbolKey)
    (version : Nat) :
    (valuation.delayed versions).read (key.versionName version) key.sort =
      valuation.read (key.versionName (min version (versions.get key)))
        key.sort := by
  have named := delayedName_versionName versions key version
  cases sorted : key.sort with
  | bool => simp [delayed, read, ← named, sorted]
  | bitVec width => simp [delayed, read, ← named, sorted]
  | _ => rfl

theorem agreesUpTo_delayed
    (valuation : Valuation) (merged : List BlockId) (versions : VersionMap) :
    AgreesUpTo merged versions valuation (valuation.delayed versions) where
  markers block visit _ := by
    simp [delayed, delayedName, readNumbered?_version_markerName]
  symbols key version past := by
    rw [read_delayed, Nat.min_eq_left past]

/-- Later versions read as those of the moment. -/
theorem read_environmentOf_delayed
    (valuation : Valuation) {versions later : VersionMap}
    (below : ∀ key, versions.get key ≤ later.get key) (target : Program.Variable) :
    (environmentOf (valuation.delayed versions) later).read target =
      (environmentOf valuation versions).read target := by
  apply read_environmentOf_congr
  intro key _
  rw [read_delayed, Nat.min_eq_right (below key)]

end FlowWitness.Smt.Valuation
