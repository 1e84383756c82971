import HeapSampler.Pprof.Message
import HeapSampler.Wire.Raw

/-!
# The canonical bytes of a message

Fields stand in the order of their numbers.  A number that is zero and a list that is empty are
left out, the numbers of a list are packed into one field, and each message of a list is a field
of its own even when it has no content.
-/

namespace HeapSampler.Pprof.Canonical

open HeapSampler.Wire (key)
open HeapSampler.Wire.Varint (encode)

def word (number : Nat) (value : UInt64) : List UInt8 :=
  if value = 0 then [] else encode (key number .varint) ++ encode value.toNat

def integer (number : Nat) (value : Int64) : List UInt8 :=
  word number value.toUInt64

def delimited (number : Nat) (payload : List UInt8) : List UInt8 :=
  encode (key number .delimited) ++ encode payload.length ++ payload

def words (number : Nat) (values : List UInt64) : List UInt8 :=
  if values = [] then [] else delimited number (values.flatMap fun value => encode value.toNat)

def integers (number : Nat) (values : List Int64) : List UInt8 :=
  words number (values.map (·.toUInt64))

def valueType (message : ValueType) : List UInt8 :=
  integer 1 message.type ++ integer 2 message.unit

def label (message : Label) : List UInt8 :=
  integer 1 message.key ++ integer 2 message.str ++ integer 3 message.num ++
    integer 4 message.numUnit

def line (message : Line) : List UInt8 :=
  word 1 message.functionId ++ integer 2 message.line

def location (message : Location) : List UInt8 :=
  word 1 message.id ++ word 2 message.mappingId ++ word 3 message.address ++
    message.lines.flatMap (delimited 4 <| line ·)

def function (message : Function) : List UInt8 :=
  word 1 message.id ++ integer 2 message.name ++ integer 3 message.systemName ++
    integer 4 message.filename

def sample (message : Sample) : List UInt8 :=
  words 1 message.locationIds ++ integers 2 message.values ++
    message.labels.flatMap (delimited 3 <| label ·)

def profile (message : Profile) : List UInt8 :=
  message.sampleTypes.flatMap (delimited 1 <| valueType ·) ++
    message.samples.flatMap (delimited 2 <| sample ·) ++
    message.locations.flatMap (delimited 4 <| location ·) ++
    message.functions.flatMap (delimited 5 <| function ·) ++
    message.strings.flatMap (delimited 6 <| ·.toUTF8.toList) ++
    integer 9 message.timeNanos ++ integer 10 message.durationNanos ++
    integer 14 message.defaultSampleType

end HeapSampler.Pprof.Canonical
