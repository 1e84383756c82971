/-!
# Cells with recycled positions

A slab is a row of cells.  A new content takes the cell that was vacated last, and only when no
cell is vacant the row grows, so the positions in use stay dense.
-/

namespace HeapSampler

structure Slab (α : Type) where
  cells : Array (Option α) := #[]
  /-- The vacant cells, the one vacated last in front. -/
  free : List Nat := []

namespace Slab

variable {α : Type}

def get? (slab : Slab α) (index : Nat) : Option α :=
  slab.cells[index]?.join

def next (slab : Slab α) : Nat :=
  slab.free.head?.getD slab.cells.size

def insert (slab : Slab α) (content : α) : Slab α :=
  match slab.free with
  | [] => { slab with cells := slab.cells.push (some content) }
  | index :: rest => { cells := slab.cells.setIfInBounds index (some content), free := rest }

def put (slab : Slab α) (index : Nat) (content : α) : Slab α :=
  { slab with cells := slab.cells.setIfInBounds index (some content) }

def erase (slab : Slab α) (index : Nat) : Slab α :=
  { cells := slab.cells.setIfInBounds index none, free := index :: slab.free }

def entries (slab : Slab α) : List (Nat × α) :=
  slab.cells.toList.zipIdx.filterMap fun (cell, index) => cell.map (index, ·)

def occupied (slab : Slab α) : Nat :=
  slab.cells.countP Option.isSome

end Slab

end HeapSampler
