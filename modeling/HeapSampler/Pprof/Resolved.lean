import HeapSampler.Pprof.Message

/-!
# What a profile means

A resolved sample has names in place of ids and offsets.  The resolved samples of a profile are
sorted, and so are the tags of each, so profiles that mean the same resolve to the same list
whatever ids and orders their producers chose.
-/

namespace HeapSampler.Pprof

structure ResolvedFrame where
  functionName : String
  fileName : String
  line : Int64
  deriving DecidableEq, Repr

structure ResolvedTag where
  key : String
  value : String
  deriving DecidableEq, Repr

/-- A sample by name, its frames leaf first. -/
structure ResolvedSample where
  frames : List ResolvedFrame
  tags : List ResolvedTag
  objects : Int64
  sizeBytes : Int64
  deriving DecidableEq, Repr

instance : Ord ResolvedFrame where
  compare := compareLex (compareOn ResolvedFrame.functionName)
    (compareLex (compareOn ResolvedFrame.fileName) (compareOn ResolvedFrame.line))

instance : Ord ResolvedTag where
  compare := compareLex (compareOn ResolvedTag.key) (compareOn ResolvedTag.value)

/-- Samples are ordered by stack, then tags, then the two numbers. -/
instance : Ord ResolvedSample where
  compare := compareLex (compareOn ResolvedSample.frames)
    (compareLex (compareOn ResolvedSample.tags)
      (compareLex (compareOn ResolvedSample.objects) (compareOn ResolvedSample.sizeBytes)))

def sorted {α : Type} [Ord α] (items : List α) : List α :=
  items.mergeSort fun first second => (compare first second).isLE

inductive ResolveError where
  | missingLocation (id : UInt64)
  | missingFunction (id : UInt64)
  | stringOutOfRange (offset : Int64)
  deriving DecidableEq, Repr

def ResolveError.message : ResolveError → String
  | missingLocation id => "location " ++ toString id ++ " is missing"
  | missingFunction id => "function " ++ toString id ++ " is missing"
  | stringOutOfRange offset => "string " ++ toString offset ++ " is out of range"

namespace Profile

def resolveString (profile : Profile) (offset : Int64) : Except ResolveError String :=
  match profile.string? offset with
  | some string => .ok string
  | none => .error (.stringOutOfRange offset)

def resolveLine (profile : Profile) (line : Line) : Except ResolveError ResolvedFrame :=
  match profile.function? line.functionId with
  | none => .error (.missingFunction line.functionId)
  | some function => do
      let functionName ← profile.resolveString function.name
      let fileName ← profile.resolveString function.filename
      return { functionName, fileName, line := line.line }

def resolveLocation (profile : Profile) (id : UInt64) : Except ResolveError (List ResolvedFrame) :=
  match profile.location? id with
  | none => .error (.missingLocation id)
  | some location => location.lines.mapM profile.resolveLine

def resolveLabel (profile : Profile) (label : Label) : Except ResolveError ResolvedTag := do
  let key ← profile.resolveString label.key
  let value ← profile.resolveString label.str
  return { key, value }

/-- A sample by name.  A missing number counts as zero. -/
def resolveSample (profile : Profile) (sample : Sample) : Except ResolveError ResolvedSample := do
  let frames ← sample.locationIds.mapM profile.resolveLocation
  let tags ← sample.labels.mapM profile.resolveLabel
  return {
    frames := frames.flatten
    tags := sorted tags
    objects := sample.values[0]?.getD 0
    sizeBytes := sample.values[1]?.getD 0 }

def resolve (profile : Profile) : Except ResolveError (List ResolvedSample) := do
  let samples ← profile.samples.mapM profile.resolveSample
  return sorted samples

end Profile

end HeapSampler.Pprof
