import FlowWitness.Exploration.VersionMap

/-!
# Shared version maps

Version maps that share storage until one of them is written to.  Every slot
points to a table; copying a slot copies the pointer, and a write to a table
that another slot points to first gives the written slot a table of its own.
Which slots share a table can be observed; what a slot holds is the same as if
nothing were shared.

Versions are words of 32 bits here: a script can set the largest one and then
ask for the next.
-/

namespace FlowWitness.Exploration

/-! ## Versions as words -/

/-- What becomes of a run that counts beyond the largest word. -/
inductive Overflow where
  | stops
  | wraps
  deriving DecidableEq, Repr

/-- The word after a word, if the run goes on. -/
def Overflow.next? : Overflow → UInt32 → Option UInt32
  | .stops, word => if word + 1 = 0 then none else some (word + 1)
  | .wraps, word => some (word + 1)

/-! ## Stores -/

/-- Tables of versions, and slots that point to them. -/
structure VersionSlots where
  tables : List VersionMap
  slots : List Nat
  deriving DecidableEq, Repr

/-- An operation on slots. -/
inductive SlotStep where
  | new
  | clone (slot : Nat)
  | put (slot : Nat) (key : SymbolKey) (version : UInt32)
  | bump (slot : Nat) (key : SymbolKey)
  | merge (slots : List Nat)
  deriving DecidableEq, Repr

/-- Insert a version given by its number. -/
def SlotStep.insert (slot : Nat) (key : SymbolKey) (version : Nat) :
    SlotStep :=
  .put slot key (.ofNat version)

namespace VersionSlots

/-- No slots. -/
def empty : VersionSlots := ⟨[], []⟩

/-- The table a slot points to; slots that do not exist point nowhere. -/
def tableOf? (store : VersionSlots) (slot : Nat) : Option Nat :=
  store.slots[slot]?

/-- What a table holds. -/
def contents (store : VersionSlots) (table : Nat) : VersionMap :=
  (store.tables[table]?).getD .empty

/-- What a slot holds. -/
def read? (store : VersionSlots) (slot : Nat) : Option VersionMap :=
  (store.tableOf? slot).map store.contents

/-- What every slot holds. -/
def readAll (store : VersionSlots) : List VersionMap :=
  store.slots.map store.contents

/-- Add a slot with a table of its own. -/
def addTable (store : VersionSlots) (map : VersionMap) : VersionSlots :=
  ⟨store.tables ++ [map], store.slots ++ [store.tables.length]⟩

/-- Add a slot that shares a table. -/
def share (store : VersionSlots) (table : Nat) : VersionSlots :=
  { store with slots := store.slots ++ [table] }

/--
Set a version in a slot that points to `table`.  A table with a single slot is
written in place; a slot of a shared table moves to a copy.
-/
def write (store : VersionSlots) (slot table : Nat) (key : SymbolKey)
    (version : Nat) : VersionSlots :=
  let written := (store.contents table).insert key version
  if store.slots.count table ≤ 1 then
    { store with tables := store.tables.set table written }
  else
    ⟨store.tables ++ [written], store.slots.set slot store.tables.length⟩

/-- Raise the version of one key in a slot. -/
def raise (store : VersionSlots) (slot : Nat) (entry : SymbolKey × Nat) :
    VersionSlots :=
  match store.tableOf? slot with
  | none => store
  | some table =>
    match (store.contents table).get? entry.1 with
    | none => store.write slot table entry.1 entry.2
    | some current =>
      if current < entry.2 then store.write slot table entry.1 entry.2
      else store

/--
Raise a slot to the versions of a table.  A slot that points to this table
already has them.
-/
def absorb (slot : Nat) (store : VersionSlots) (table : Nat) : VersionSlots :=
  if store.tableOf? slot = some table then store
  else (store.contents table).entries.foldl (fun soFar entry =>
    soFar.raise slot entry) store

/--
Perform a step.  The answer is the version that a bump mints.  A step that
names a slot that does not exist is refused, and so is one that stops the run.
-/
def performWith (overflow : Overflow) (store : VersionSlots) :
    SlotStep → Option (Option Nat × VersionSlots)
  | .new => some (none, store.addTable .empty)
  | .clone slot => do
    let table ← store.tableOf? slot
    return (none, store.share table)
  | .put slot key version => do
    let table ← store.tableOf? slot
    return (none, store.write slot table key version.toNat)
  | .bump slot key => do
    let table ← store.tableOf? slot
    let next ← overflow.next? (.ofNat ((store.contents table).get key))
    let copy := store.slots.length
    return (some next.toNat,
      (store.share table).write copy table key next.toNat)
  | .merge slots => do
    let tables ← slots.mapM store.tableOf?
    match tables with
    | [] => return (none, store.addTable .empty)
    | first :: rest =>
      let target := store.slots.length
      return (none, rest.foldl (absorb target) (store.share first))

/-- Perform a step of a run that stops when it counts too far. -/
def perform (store : VersionSlots) (step : SlotStep) :
    Option (Option Nat × VersionSlots) :=
  store.performWith .stops step

/-- Do two slots point to the same table? -/
def shared (store : VersionSlots) (first second : Nat) : Bool :=
  store.tableOf? first == store.tableOf? second

end VersionSlots

end FlowWitness.Exploration
