import HeapSampler.Intern.Tables
import HeapSampler.Store.Arena

/-!
# Live samples

The live table leads from the identity of each live sampled object to its sample and owns that
sample.  A snapshot owns every sample that was live when it was taken.  A sample whose last owner
lets go of it is destroyed, which gives back its references to interned text.

All of this rests on books that have to balance: handles that are held lead somewhere, and ids that
are held are interned.  A call that finds them out of balance ends in a `Breach`, after which
nothing can be trusted.
-/

namespace HeapSampler

inductive Breach where
  /-- A handle that is held leads nowhere, or its sample has too many owners. -/
  | staleHandle (handle : Handle)
  /-- A sample that should be there is missing. -/
  | missingSample (handle : Handle)
  /-- A reference to interned text could not be taken or given back. -/
  | interning (cause : InternError)
  /-- There is no cell left for another sample. -/
  | arenaFull
  deriving DecidableEq, Repr

structure Dropped where
  deriving DecidableEq, Repr

def Dropped.message (_ : Dropped) : String := "the sample store is full"

structure Store where
  arena : Arena := {}
  /-- The live samples by identity, in the order in which they became live. -/
  live : List (Identity × Handle) := []
  /-- How many samples may be live at once. -/
  maxSamples : Nat
  /-- How many allocations found the table full since the count was last taken. -/
  dropped : Nat := 0

namespace Store

/-- The count of drops is a 64-bit number: it saturates when drops are given back. -/
def maxDropped : Nat := 18446744073709551615

def liveCount (store : Store) : Nat := store.live.length

def retainedCount (store : Store) : Nat := store.arena.size

def isFull (store : Store) : Bool := store.maxSamples ≤ store.liveCount

def handle? (store : Store) (identity : Identity) : Option Handle :=
  (store.live.find? fun entry => entry.1 = identity).map Prod.snd

def contains (store : Store) (identity : Identity) : Bool :=
  (store.handle? identity).isSome

def sample? (store : Store) (handle : Handle) : Option Sample :=
  store.arena.get? handle

def unlist (store : Store) (identity : Identity) : Store :=
  { store with live := store.live.filter fun entry => entry.1 ≠ identity }

def recordDrop (store : Store) : Store :=
  { store with dropped := (store.dropped + 1) % (maxDropped + 1) }

def takeDropped (store : Store) : Nat × Store :=
  (store.dropped, { store with dropped := 0 })

def restoreDropped (store : Store) (count : Nat) : Store :=
  { store with dropped := min (store.dropped + count) maxDropped }

def setMaxSamples (store : Store) (count : Nat) : Store :=
  { store with maxSamples := count }

def modify (store : Store) (handle : Handle) (change : Sample → Sample) : Except Breach Store :=
  match store.arena.modify? handle change with
  | some arena => .ok { store with arena }
  | none => .error (.missingSample handle)

def retain (store : Store) (handle : Handle) : Except Breach Store :=
  match store.arena.retain? handle with
  | some arena => .ok { store with arena }
  | none => .error (.staleHandle handle)

/-- The handles of all live samples, and the store in which each of them has one owner more. -/
def snapshot (store : Store) : Except Breach (List Handle × Store) := do
  let handles := store.live.map Prod.snd
  let store ← handles.foldlM retain store
  return (handles, store)

def memoryUsage (store : Store) : Nat :=
  store.arena.memoryUsage + 16 * store.live.length

def describe (store : Store) : String :=
  Text.record "SampleStore"
    [("live", toString store.liveCount), ("retained", toString store.retainedCount),
      ("max_samples", toString store.maxSamples), ("dropped", toString store.dropped)]

end Store

structure Inventory where
  store : Store
  tables : Tables := {}

namespace Inventory

def releaseString (tables : Tables) (id : StringId) : Except Breach Tables :=
  match tables.strings.release id with
  | .ok strings => .ok { tables with strings }
  | .error cause => .error (.interning cause)

def releaseTag (tables : Tables) (tag : Tag) : Except Breach Tables := do
  let tables ← releaseString tables tag.key
  releaseString tables tag.value

def releaseLocation (tables : Tables) (id : LocationId) : Except Breach Tables :=
  match tables.releasePlace id with
  | (tables, .ok ()) => .ok tables
  | (_, .error cause) => .error (.interning cause)

def releaseReferences (tables : Tables) (sample : Sample) : Except Breach Tables := do
  let tables ← sample.locations.foldlM releaseLocation tables
  sample.tags.foldlM releaseTag tables

/-- Takes away one owner of a sample and destroys the sample with its last one. -/
def releaseHandle (inventory : Inventory) (handle : Handle) : Except Breach Inventory :=
  match inventory.store.arena.release? handle with
  | none => .error (.staleHandle handle)
  | some (arena, none) => .ok { inventory with store := { inventory.store with arena } }
  | some (arena, some sample) =>
      (releaseReferences inventory.tables sample).map fun tables =>
        { store := { inventory.store with arena }, tables }

/-- Marks a sample that has left the live table as released and takes away the table's ownership. -/
def releaseLive (inventory : Inventory) (handle : Handle) : Except Breach Inventory := do
  let store ← inventory.store.modify handle Sample.markReleased
  releaseHandle { inventory with store } handle

/-- The object with an identity is gone.  Identities that are not live are ignored. -/
def recordRelease (inventory : Inventory) (identity : Identity) : Except Breach Inventory :=
  match inventory.store.handle? identity with
  | none => .ok inventory
  | some handle =>
      releaseLive { inventory with store := inventory.store.unlist identity } handle

/--
Adds a sample for a fresh allocation, or counts a drop if the table is full.  The caller hands over
one reference to each string of the tags, which a drop gives back.  An identity that is still live
belongs to an object whose release was never reported; its sample is released first.
-/
def recordAllocation (inventory : Inventory) (identity : Identity) (tags : List Tag)
    (backtrace : Backtrace) : Except Breach (Inventory × Except Dropped Unit) := do
  let inventory ← inventory.recordRelease identity
  if inventory.store.isFull then
    let tables ← tags.foldlM releaseTag inventory.tables
    return ({ store := inventory.store.recordDrop, tables }, .error {})
  else
    match inventory.store.arena.insert (Sample.new identity tags backtrace) with
    | none => throw .arenaFull
    | some (arena, handle) =>
        let live := inventory.store.live ++ [(identity, handle)]
        return ({ inventory with store := { inventory.store with arena, live } }, .ok ())

/--
The object with identity `old` has moved to `new`.  A live sample with the new identity belongs to
an object whose release was never reported, and is released.
-/
def recordRelocation (inventory : Inventory) (old new : Identity) : Except Breach Inventory :=
  if old = new then .ok inventory
  else
    match inventory.store.handle? old with
    | none => .ok inventory
    | some handle => do
        let inventory ←
          recordRelease { inventory with store := inventory.store.unlist old } new
        let store ← inventory.store.modify handle (·.moved new)
        return { inventory with store := { store with live := store.live ++ [(new, handle)] } }

def releaseSnapshot (inventory : Inventory) (handles : List Handle) : Except Breach Inventory :=
  handles.foldlM releaseHandle inventory

def clear (inventory : Inventory) : Except Breach Inventory :=
  let handles := inventory.store.live.map Prod.snd
  handles.foldlM releaseLive { inventory with store := { inventory.store with live := [] } }

end Inventory

end HeapSampler
