import HeapSampler.Intern.Functions
import HeapSampler.Text.Hex
import HeapSampler.Wire.Field

/-!
# Samples

A sample stands for one allocation.  It starts with the raw backtrace of the allocation, which is
later exchanged for the ids of its places, and it ends when the allocation is released; from then
on it has no identity, so nothing can ask the host about an object that is gone.
-/

namespace HeapSampler

/-- The host's name for a live object; it changes when the object is moved. -/
structure Identity where
  value : UInt64
  deriving DecidableEq, Repr

namespace Identity

instance : Ord Identity := ⟨compareOn value⟩

instance : Wire.Describe Identity :=
  ⟨fun identity =>
    Text.wrapped "AllocationIdentity" (Text.hexadecimal identity.value.toNat)⟩

end Identity

structure RawFrame where
  token : UInt64
  deriving DecidableEq, Repr

instance : Wire.Describe RawFrame :=
  ⟨fun frame => Text.wrapped "RawFrame" (toString frame.token)⟩

structure Backtrace where
  frames : List RawFrame := []
  deriving DecidableEq, Repr

instance : Wire.Describe Backtrace :=
  ⟨fun backtrace => Text.record "RawBacktrace" [("frames", Wire.describe backtrace.frames)]⟩

/-- What can have happened to a sample; nothing of it is ever undone. -/
structure SampleFlags where
  released : Bool := false
  symbolized : Bool := false
  deriving DecidableEq, Repr

def SampleFlags.contains (flags others : SampleFlags) : Bool :=
  (!others.released || flags.released) && (!others.symbolized || flags.symbolized)

structure Tag where
  key : StringId
  value : StringId
  deriving DecidableEq, Repr

structure Sample where
  /-- The current identity of the object; none once it is released. -/
  identity : Option Identity
  /-- The backtrace, unless it is symbolized or out for symbolization. -/
  backtrace : Option Backtrace
  /-- The places of the backtrace, leaf first; none before it is symbolized. -/
  locations : List LocationId := []
  tags : List Tag
  /-- The size that was measured last. -/
  size : Option UInt64 := none
  flags : SampleFlags := {}
  deriving DecidableEq, Repr

namespace Sample

def new (identity : Identity) (tags : List Tag) (backtrace : Backtrace) : Sample where
  identity := some identity
  backtrace := some backtrace
  tags := tags

def isReleased (sample : Sample) : Bool := sample.flags.released

def isSymbolized (sample : Sample) : Bool := sample.flags.symbolized

def moved (sample : Sample) (identity : Identity) : Sample :=
  { sample with identity := some identity }

def markReleased (sample : Sample) : Sample :=
  { sample with identity := none, flags := { sample.flags with released := true } }

def symbolized (sample : Sample) (locations : List LocationId) : Sample :=
  { sample with
    backtrace := none, locations, flags := { sample.flags with symbolized := true } }

def measured (sample : Sample) (size : UInt64) : Sample :=
  { sample with size := some size }

/-- The sample while its backtrace is out for symbolization. -/
def withoutBacktrace (sample : Sample) : Sample :=
  { sample with backtrace := none }

def withBacktrace (sample : Sample) (backtrace : Backtrace) : Sample :=
  { sample with backtrace := some backtrace }

end Sample

end HeapSampler
