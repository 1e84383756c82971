/-!
# Output under a limit

A bounded buffer takes a chunk whole or refuses it.  In front of it a coalescing writer collects
small chunks and passes large ones on, so the buffer sees fewer and larger writes; neither changes
what arrives, nor whether it fits.
-/

namespace HeapSampler

structure BoundedBuffer where
  limit : Nat
  bytes : Array UInt8 := #[]

namespace BoundedBuffer

def wordRange : Nat := 18446744073709551616

/-- The limit less the bytes that are there, taken in machine words: a difference below zero starts
over from the largest word. -/
def room (buffer : BoundedBuffer) : Nat :=
  if buffer.bytes.size ≤ buffer.limit then buffer.limit - buffer.bytes.size
  else buffer.limit + wordRange - buffer.bytes.size

/-- Appends a chunk if there is room for all of it. -/
def write? (buffer : BoundedBuffer) (chunk : Array UInt8) : Option BoundedBuffer :=
  if chunk.size ≤ buffer.room then
    some { buffer with bytes := buffer.bytes ++ chunk }
  else none

end BoundedBuffer

structure CoalescingWriter where
  buffer : BoundedBuffer
  pending : Array UInt8 := #[]

namespace CoalescingWriter

def capacity : Nat := 8192

def flush? (writer : CoalescingWriter) : Option CoalescingWriter :=
  (writer.buffer.write? writer.pending).map fun buffer => { buffer }

/-- Takes a chunk: collects it if there is room, else makes room first, else passes it on. -/
def write? (writer : CoalescingWriter) (chunk : Array UInt8) : Option CoalescingWriter :=
  if chunk.size + writer.pending.size ≤ capacity ∧ chunk.size < capacity then
    some { writer with pending := writer.pending ++ chunk }
  else
    match writer.flush? with
    | none => none
    | some writer =>
        if capacity ≤ chunk.size then
          (writer.buffer.write? chunk).map fun buffer => { buffer }
        else some { writer with pending := chunk }

def writeAll? (limit : Nat) (chunks : List (Array UInt8)) : Option (Array UInt8) :=
  ((chunks.foldlM write? { buffer := { limit } }).bind flush?).map (·.buffer.bytes)

end CoalescingWriter

end HeapSampler
