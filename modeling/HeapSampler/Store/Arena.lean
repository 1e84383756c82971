import HeapSampler.Intern.Slab
import HeapSampler.Store.Sample

/-!
# Samples with counted owners

A sample lives in a cell for as long as it has owners.  A handle names a cell and its generation,
which changes each time the cell is vacated, so a handle whose sample is gone leads nowhere even
after the cell has been given to another sample.
-/

namespace HeapSampler

structure Handle where
  index : Nat
  generation : UInt32
  deriving DecidableEq, Repr

structure Owned where
  sample : Sample
  owners : Nat
  deriving DecidableEq, Repr

structure Arena where
  slab : Slab Owned := {}
  /-- For each cell how often it has been vacated, modulo 2^32. -/
  generations : Array UInt32 := #[]
  /-- How many samples there are. -/
  size : Nat := 0

namespace Arena

def maxWord : Nat := 4294967295

def generation (arena : Arena) (index : Nat) : UInt32 :=
  arena.generations[index]?.getD 0

def owned? (arena : Arena) (handle : Handle) : Option Owned :=
  if arena.generation handle.index = handle.generation then arena.slab.get? handle.index else none

def get? (arena : Arena) (handle : Handle) : Option Sample :=
  (arena.owned? handle).map (·.sample)

def owners? (arena : Arena) (handle : Handle) : Option Nat :=
  (arena.owned? handle).map (·.owners)

/-- Takes in a sample with one owner, if there is a cell for it. -/
def insert (arena : Arena) (sample : Sample) : Option (Arena × Handle) :=
  let index := arena.slab.next
  if index ≤ maxWord then
    let generations :=
      if index < arena.generations.size then arena.generations else arena.generations.push 0
    let arena : Arena :=
      { slab := arena.slab.insert { sample, owners := 1 }, generations, size := arena.size + 1 }
    some (arena, ⟨index, arena.generation index⟩)
  else none

def modify? (arena : Arena) (handle : Handle) (change : Sample → Sample) : Option Arena :=
  (arena.owned? handle).map fun owned =>
    { arena with slab := arena.slab.put handle.index { owned with sample := change owned.sample } }

def retain? (arena : Arena) (handle : Handle) : Option Arena :=
  match arena.owned? handle with
  | none => none
  | some owned =>
      if owned.owners < maxWord then
        some { arena with
          slab := arena.slab.put handle.index { owned with owners := owned.owners + 1 } }
      else none

/-- Takes away an owner; with the last one the sample leaves the arena and is handed back. -/
def release? (arena : Arena) (handle : Handle) : Option (Arena × Option Sample) :=
  (arena.owned? handle).map fun owned =>
    if 1 < owned.owners then
      ({ arena with
        slab := arena.slab.put handle.index { owned with owners := owned.owners - 1 } }, none)
    else
      ({ slab := arena.slab.erase handle.index
         generations :=
          arena.generations.setIfInBounds handle.index (arena.generation handle.index + 1)
         size := arena.size - 1 }, some owned.sample)

def samples (arena : Arena) : List Sample :=
  arena.slab.entries.map fun (_, owned) => owned.sample

def memoryUsage (arena : Arena) : Nat :=
  128 * arena.slab.cells.size + 4 * arena.slab.free.length +
    arena.samples.foldl (fun bytes sample =>
      bytes + 4 * sample.locations.length + 8 * sample.tags.length +
        8 * (sample.backtrace.map fun backtrace => backtrace.frames.length).getD 0) 0

end Arena

end HeapSampler
