import HeapSampler.Export.Draft
import HeapSampler.Export.Sink
import HeapSampler.Gzip.Member

/-!
# Exporting a profile

An export is a draft written field by field, packed as asked, under a limit on the packed size.
-/

namespace HeapSampler

open HeapSampler.Wire (NumberedField always unlessBlank)

def maxNanos : Nat := 9223372036854775807

namespace ExportOptions

/-- The time as it is written: zero before the epoch, and the largest beyond it. -/
def writtenTime (options : ExportOptions) : Int64 :=
  Int64.ofNat (min options.timeNanos.toNat maxNanos)

def writtenDuration (options : ExportOptions) : Int64 :=
  Int64.ofNat (min options.durationNanos maxNanos)

end ExportOptions

namespace Draft

/-- The fields of the profile message, each in its bytes, in the order of their numbers. -/
def fields (draft : Draft) (options : ExportOptions) : List (List UInt8) :=
  draft.sampleTypes.map (always 1 · |>.encode) ++
    draft.samples.map (always 2 · |>.encode) ++
    draft.locations.map (always 4 · |>.encode) ++
    draft.functions.map (always 5 · |>.encode) ++
    draft.strings.toList.map (always 6 · |>.encode) ++
    [(unlessBlank 9 options.writtenTime).encode,
      (unlessBlank 10 options.writtenDuration).encode,
      (unlessBlank 14 draft.defaultSampleType.toInt64).encode]

def encode (draft : Draft) (options : ExportOptions) : List UInt8 :=
  (draft.fields options).flatten

def pack? (draft : Draft) (options : ExportOptions) : Option (Array UInt8) :=
  match options.compression with
  | .none => CoalescingWriter.writeAll? options.maxBytes ((draft.fields options).map (·.toArray))
  | .gzip =>
      let buffer : BoundedBuffer := { limit := options.maxBytes }
      (buffer.write? (Gzip.gzip (draft.encode options)).toArray).map (·.bytes)

end Draft

/-- Exports samples.  References that lead nowhere are found before the size limit is. -/
def encodeProfile (tables : Tables) (samples : List Sample) (options : ExportOptions) :
    Except EncodeError (List UInt8) := do
  let draft ← Draft.ofSamples tables samples
  match draft.pack? options with
  | some bytes => return bytes.toList
  | none => throw (.sizeLimitExceeded options.maxBytes)

end HeapSampler
