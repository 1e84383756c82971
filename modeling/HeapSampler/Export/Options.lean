/-!
# Choices for one export
-/

namespace HeapSampler

inductive Compression where
  | gzip
  | none
  deriving DecidableEq, Repr

def Compression.text : Compression → String
  | gzip => "gzip"
  | none => "none"

def Compression.ofText? : String → Option Compression
  | "gzip" => some .gzip
  | "none" => some .none
  | _ => Option.none

def defaultMaxProfileBytes : Nat := 256 * 1024 * 1024

structure ExportOptions where
  /-- When the profile was taken, in nanoseconds since the epoch. -/
  timeNanos : Int := 0
  /-- How long the session has lasted, in nanoseconds. -/
  durationNanos : Nat := 0
  compression : Compression := .gzip
  /-- The most bytes the export may have once packed. -/
  maxBytes : Nat := defaultMaxProfileBytes
  deriving DecidableEq, Repr

inductive EncodeError where
  | outOfMemory
  /-- The export would have more bytes than allowed. -/
  | sizeLimitExceeded (limit : Nat)
  /-- There are more strings than offsets. -/
  | storageFull
  | unknownLocation (id : Nat)
  | unknownString (id : Nat)
  deriving DecidableEq, Repr

def EncodeError.name : EncodeError → String
  | outOfMemory => "OutOfMemory"
  | sizeLimitExceeded _ => "SizeLimitExceeded"
  | storageFull => "StorageFull"
  | unknownLocation _ => "UnknownLocation"
  | unknownString _ => "UnknownString"

def EncodeError.message : EncodeError → String
  | outOfMemory => "out of memory"
  | sizeLimitExceeded limit => "profile exceeds the size limit of " ++ toString limit ++ " bytes"
  | storageFull => "string table is full"
  | unknownLocation id => "location " ++ toString id ++ " is not in the function table"
  | unknownString id => "string " ++ toString id ++ " is not in the string table"

end HeapSampler
