import HeapSampler.Export.Options
import HeapSampler.Pprof.Outgoing
import HeapSampler.Store.Inventory

/-!
# Drafting a profile

A draft holds everything a profile will say, with all references already in the profile's own
terms.  Strings get their offsets in the order in which they are first needed: the empty one, those
of the sample types, those of the samples' tags, and those of the functions.  Locations keep the
ids of their places and come in ascending order, once each; functions are told apart by name and
file and numbered from 1 in the order in which the locations need them.
-/

namespace HeapSampler

/-- The content of a profile, but for its times. -/
structure Draft where
  sampleTypes : List Pprof.Outgoing.ValueType
  samples : List Pprof.Outgoing.Sample
  locations : List Pprof.Outgoing.Location
  functions : List Pprof.Outgoing.Function
  strings : Array String
  defaultSampleType : Pprof.StringOffset

/-- The strings that have an offset, and the functions that have a number, in this order. -/
structure Numbering where
  strings : Array String := #[]
  functions : Array (StringId × StringId) := #[]
  /-- The function messages, the first one first. -/
  messages : Array Pprof.Outgoing.Function := #[]

/-- A step of drafting, which can give out offsets and numbers or fail. -/
abbrev Drafting := StateT Numbering (Except EncodeError)

namespace Drafting

open Pprof

/-- The offset of a string; a string that has none gets the next one. -/
def offsetOf (text : String) : Drafting StringOffset := do
  let numbering ← get
  let (index, strings) := match numbering.strings.idxOf? text with
    | some index => (index, numbering.strings)
    | none => (numbering.strings.size, numbering.strings.push text)
  match StringOffset.ofNat? index with
  | some offset =>
      set { numbering with strings }
      return offset
  | none => throw .storageFull

def offsetOfId (strings : StringTable) (id : StringId) : Drafting StringOffset :=
  match strings.lookup? id with
  | some text => offsetOf text
  | none => throw (.unknownString id.value)

def label (strings : StringTable) (tag : Tag) : Drafting Outgoing.Label := do
  let key ← offsetOfId strings tag.key
  let value ← offsetOfId strings tag.value
  return .ofString key value

def maxSize : Nat := 9223372036854775807

def sizeValue (size : Option UInt64) : Int64 :=
  Int64.ofNat (min (size.getD 0).toNat maxSize)

def sample (strings : StringTable) (own : HeapSampler.Sample) : Drafting Outgoing.Sample := do
  let labels ← own.tags.mapM (label strings)
  return {
    locationIds := own.locations.map LocationId.toPprof
    values := [1, sizeValue own.size]
    labels }

/-- The number of a function; a function that has none gets the next one, and a message. -/
def functionNumber (strings : StringTable) (place : Place) : Drafting UInt64 := do
  let numbering ← get
  match numbering.functions.idxOf? (place.name, place.file) with
  | some index => return UInt64.ofNat (index + 1)
  | none =>
      let number := UInt64.ofNat (numbering.functions.size + 1)
      let name ← offsetOfId strings place.name
      let filename ← offsetOfId strings place.file
      modify fun numbering =>
        { numbering with
          functions := numbering.functions.push (place.name, place.file)
          messages := numbering.messages.push { id := number, name, systemName := name, filename } }
      return number

def location (tables : Tables) (id : LocationId) : Drafting Outgoing.Location :=
  match tables.functions.lookup? id with
  | none => throw (.unknownLocation id.value)
  | some place => do
      let functionId ← functionNumber tables.strings place
      return {
        id := id.toPprof
        line := { functionId, line := Int64.ofNat place.line.toNat } }

/-- The places of all samples, ascending, once each. -/
def referenced (samples : List HeapSampler.Sample) : List LocationId :=
  let ids := (samples.flatMap (·.locations)).map (·.value)
  (ids.mergeSort.eraseReps).map (⟨·⟩)

def sampleTypes : Drafting (List Outgoing.ValueType) := do
  let objects ← offsetOf "retained_objects"
  let count ← offsetOf "count"
  let size ← offsetOf "retained_size"
  let bytes ← offsetOf "bytes"
  return [{ type := objects, unit := count }, { type := size, unit := bytes }]

def draft (tables : Tables) (samples : List HeapSampler.Sample) : Drafting Draft := do
  let _ ← offsetOf ""
  let sampleTypes ← sampleTypes
  let drafted ← samples.mapM (sample tables.strings)
  let locations ← (referenced samples).mapM (location tables)
  let numbering ← get
  return {
    sampleTypes
    samples := drafted
    locations
    functions := numbering.messages.toList
    strings := numbering.strings
    defaultSampleType := (sampleTypes[1]?.map (·.type)).getD .zero }

end Drafting

/-- Drafts a profile of samples; the first id that is not interned is reported. -/
def Draft.ofSamples (tables : Tables) (samples : List Sample) : Except EncodeError Draft :=
  (Drafting.draft tables samples).run' {}

end HeapSampler
