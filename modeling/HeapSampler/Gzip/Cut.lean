import HeapSampler.Gzip.Search

/-!
# Cutting data into blocks

The data is cut from front to back into literals and copies.  A copy that is found is held back by
one byte, in case a longer one starts there, unless it is long enough as it is.  Pieces are
gathered in blocks, each of which gets codes of its own.
-/

namespace HeapSampler.Gzip

structure Block where
  tokens : Array Token
  content : Array UInt8

/-- A state of the cutting: the data before `position` is cut, but for a copy held back. -/
structure Cutting where
  position : Nat := 0
  /-- The copy found one byte before the position. -/
  held : Option Copy := none
  /-- The pieces of the block under way, how many of them are copies, and where it starts. -/
  tokens : Array Token := #[]
  copies : Nat := 0
  start : Nat := 0
  blocks : Array Block := #[]

namespace Cutting

/-- The length from which on a copy is not held back. -/
def longCopy : Nat := 128

def pushLiteral (cutting : Cutting) (byte : UInt8) : Cutting :=
  { cutting with tokens := cutting.tokens.push (.literal byte) }

def pushCopy (cutting : Cutting) (copied : Copy) : Cutting :=
  { cutting with
    held := none
    tokens := cutting.tokens.push (.copy copied)
    copies := cutting.copies + 1 }

def advance (cutting : Cutting) (count : Nat) : Cutting :=
  { cutting with position := cutting.position + count }

def take (cutting : Cutting) (copied : Copy) : Cutting :=
  if longCopy ≤ copied.length then (cutting.pushCopy copied).advance copied.length
  else { cutting with held := some copied }.advance 1

/-- Cuts at the position: a copy there wins over one held back, which wins over a literal. -/
def cutNext (data : Array UInt8) (links : Array Nat) (cutting : Cutting) : Cutting :=
  let byte (position : Nat) : UInt8 := data[position]?.getD 0
  match cutting.held with
  | none =>
      match copyAt? data links cutting.position (minCopyLength - 1) with
      | some copied => cutting.take copied
      | none => (cutting.pushLiteral (byte cutting.position)).advance 1
  | some held =>
      match copyAt? data links cutting.position held.length with
      | some copied => (cutting.pushLiteral (byte (cutting.position - 1))).take copied
      | none => (cutting.pushCopy held).advance (held.length - 1)

/-- How much of the data the pieces of the block under way stand for. -/
def covered (cutting : Cutting) : Nat :=
  cutting.position - cutting.start - (if cutting.held.isSome then 1 else 0)

/-- The room the pieces take: a byte for a literal, three for a copy, and one for every eight. -/
def room (cutting : Cutting) : Nat :=
  1 + cutting.tokens.size + 2 * cutting.copies + cutting.tokens.size / 8

/-- Whether the block takes too much room, or more than its data is worth. -/
def isFull (cutting : Cutting) : Bool :=
  65528 < cutting.room ||
    (31744 < cutting.covered && cutting.covered ≤ cutting.room * 115 / 128)

def close (data : Array UInt8) (cutting : Cutting) : Cutting :=
  let stop := cutting.start + cutting.covered
  { cutting with
    tokens := #[]
    copies := 0
    start := stop
    blocks := cutting.blocks.push ⟨cutting.tokens, data.extract cutting.start stop⟩ }

def run (data : Array UInt8) (links : Array Nat) : Nat → Cutting → Cutting
  | 0, cutting => cutting
  | steps + 1, cutting =>
      if data.size ≤ cutting.position then cutting
      else
        let cutting := cutting.cutNext data links
        run data links steps (if cutting.isFull then cutting.close data else cutting)

end Cutting

/-- The blocks of the data; the last one may be empty. -/
def blocksOf (data : Array UInt8) : List Block :=
  ((Cutting.run data (linksOf data) data.size {}).close data).blocks.toList

end HeapSampler.Gzip
