import FlowWitness.Program.Variable
import FlowWitness.Smt.Term

/-!
# Versions

Every assignment to a symbol mints the next version of it; the solver sees
each version as a constant of its own.  A version map gives the current
version of each symbol, zero where it says nothing.  Its entries are kept in
order of their keys, so maps with the same contents are the same.
-/

namespace FlowWitness.Exploration

open FlowWitness.Smt

/-! ## Keys -/

/-- A symbol before versioning: its stem and its sort. -/
structure SymbolKey where
  name : String
  sort : SmtSort
  deriving DecidableEq, Repr

namespace SymbolKey

/-- Keys are ordered by name, character by character, and then by sort. -/
def before (first second : SymbolKey) : Bool :=
  decide (first.name < second.name) ||
    (first.name == second.name && first.sort.before second.sort)

/-- The constant that stands for a version of the symbol: `x!7@3`. -/
def versioned (key : SymbolKey) (version : Nat) : Term :=
  .constant (key.name ++ "@" ++ toString version) key.sort

/-- The text of a key: `x!7: Bool`. -/
def text (key : SymbolKey) : String :=
  key.name ++ ": " ++ key.sort.text

end SymbolKey

/-! ## Maps -/

/-- The current version of each symbol. -/
structure VersionMap where
  entries : List (SymbolKey × Nat)
  deriving DecidableEq, Repr

namespace VersionMap

/-- The map that says nothing. -/
def empty : VersionMap := ⟨[]⟩

/-- The entry of a key in a list of entries. -/
def lookup (key : SymbolKey) : List (SymbolKey × Nat) → Option Nat
  | [] => none
  | (other, version) :: rest =>
    if other = key then some version else lookup key rest

/-- What the map says of a key. -/
def get? (map : VersionMap) (key : SymbolKey) : Option Nat :=
  lookup key map.entries

/-- The current version of a key. -/
def get (map : VersionMap) (key : SymbolKey) : Nat :=
  (map.get? key).getD 0

/-- Does the map say anything of the key? -/
def contains (map : VersionMap) (key : SymbolKey) : Bool :=
  (map.get? key).isSome

/-- Put an entry in its place among ordered entries, or replace it there. -/
def place (key : SymbolKey) (version : Nat) :
    List (SymbolKey × Nat) → List (SymbolKey × Nat)
  | [] => [(key, version)]
  | (other, current) :: rest =>
    if other = key then (key, version) :: rest
    else if key.before other then (key, version) :: (other, current) :: rest
    else (other, current) :: place key version rest

/-- Set the version of a key. -/
def insert (map : VersionMap) (key : SymbolKey) (version : Nat) : VersionMap :=
  ⟨place key version map.entries⟩

/-- Mint the next version of a key. -/
def bump (map : VersionMap) (key : SymbolKey) : VersionMap × Nat :=
  let next := map.get key + 1
  (map.insert key next, next)

/-- The number of entries. -/
def size (map : VersionMap) : Nat := map.entries.length

/-- Set the version of a key, unless the map has this version or a later one. -/
def raise (map : VersionMap) (key : SymbolKey) (version : Nat) : VersionMap :=
  match map.get? key with
  | none => map.insert key version
  | some current => if current < version then map.insert key version else map

/-- The later version of every key of either map. -/
def merge (first second : VersionMap) : VersionMap :=
  second.entries.foldl (fun merged entry => merged.raise entry.1 entry.2) first

/-- The latest version of every key of any of the maps. -/
def mergeAll : List VersionMap → VersionMap
  | [] => empty
  | first :: rest => rest.foldl merge first

end VersionMap

end FlowWitness.Exploration
