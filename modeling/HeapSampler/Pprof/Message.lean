/-!
# Profiles as any producer may have written them

A profile is a set of tables that refer to one another: samples name locations by id, locations
name functions by id, and all text is named by its offset in one string table, whose first entry is
the empty string.  Nothing here says that the references lead anywhere.
-/

namespace HeapSampler.Pprof

structure ValueType where
  type : Int64 := 0
  unit : Int64 := 0
  deriving DecidableEq, Repr

structure Label where
  key : Int64 := 0
  str : Int64 := 0
  num : Int64 := 0
  numUnit : Int64 := 0
  deriving DecidableEq, Repr

structure Line where
  functionId : UInt64 := 0
  line : Int64 := 0
  deriving DecidableEq, Repr

/-- A place in the program; inlined calls give it several lines. -/
structure Location where
  id : UInt64 := 0
  mappingId : UInt64 := 0
  address : UInt64 := 0
  lines : List Line := []
  deriving DecidableEq, Repr

structure Function where
  id : UInt64 := 0
  name : Int64 := 0
  systemName : Int64 := 0
  filename : Int64 := 0
  deriving DecidableEq, Repr

/-- A call stack, leaf first, with one number per value type of the profile. -/
structure Sample where
  locationIds : List UInt64 := []
  values : List Int64 := []
  labels : List Label := []
  deriving DecidableEq, Repr

structure Profile where
  sampleTypes : List ValueType := []
  samples : List Sample := []
  locations : List Location := []
  functions : List Function := []
  strings : List String := []
  timeNanos : Int64 := 0
  durationNanos : Int64 := 0
  defaultSampleType : Int64 := 0
  deriving DecidableEq, Repr

namespace Profile

/-- The string at an offset, if the offset is neither negative nor past the end of the table. -/
def string? (profile : Profile) (offset : Int64) : Option String :=
  if 0 ≤ offset.toInt then profile.strings[offset.toInt.toNat]? else none

/-- The location with an id; of several the last one counts. -/
def location? (profile : Profile) (id : UInt64) : Option Location :=
  profile.locations.reverse.find? (·.id = id)

/-- The function with an id; of several the last one counts. -/
def function? (profile : Profile) (id : UInt64) : Option Function :=
  profile.functions.reverse.find? (·.id = id)

end Profile

end HeapSampler.Pprof
