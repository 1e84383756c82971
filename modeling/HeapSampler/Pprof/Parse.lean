import HeapSampler.Pprof.Message
import HeapSampler.Wire.Raw

/-!
# Messages from bytes

A message starts blank and takes in its fields one by one: a single number replaces what was there,
an element of a list is appended, and a field with an unknown number is passed over.  A known field
of the wrong kind spoils the whole message.  Lists of numbers may come packed or one by one.
-/

namespace HeapSampler.Pprof

open HeapSampler.Wire

def packed? (payload : List UInt8) : Option (List Nat) :=
  match payload with
  | [] => some []
  | byte :: tail =>
      match _first : Varint.decode? (byte :: tail) with
      | none => none
      | some (value, rest) => (packed? rest).map (value :: ·)
termination_by payload.length
decreasing_by exact Varint.length_lt_of_decode? _first

def numbers? : Raw → Option (List Nat)
  | .varint value => some [value]
  | .delimited payload => packed? payload
  | _ => none

def text? : Raw → Option String
  | .delimited payload => String.fromUTF8? ⟨payload.toArray⟩
  | _ => none

/-- Messages with a reading of their fields.  `levels` bounds how deeply fields may still nest. -/
class Absorb (α : Type) where
  blank : α
  absorb : Nat → α → Nat × Raw → Option α

def message? {α : Type} [Absorb α] : Nat → List UInt8 → Option α
  | 0, _ => none
  | levels + 1, bytes =>
      (fields? levels bytes).bind fun fields =>
        fields.foldlM (Absorb.absorb levels) Absorb.blank

def submessage? {α : Type} [Absorb α] (levels : Nat) : Raw → Option α
  | .delimited payload => message? levels payload
  | _ => none

instance : Absorb ValueType where
  blank := {}
  absorb _ message
    | (1, .varint value) => some { message with type := Int64.ofNat value }
    | (2, .varint value) => some { message with unit := Int64.ofNat value }
    | (1, _) | (2, _) => none
    | _ => some message

instance : Absorb Label where
  blank := {}
  absorb _ message
    | (1, .varint value) => some { message with key := Int64.ofNat value }
    | (2, .varint value) => some { message with str := Int64.ofNat value }
    | (3, .varint value) => some { message with num := Int64.ofNat value }
    | (4, .varint value) => some { message with numUnit := Int64.ofNat value }
    | (1, _) | (2, _) | (3, _) | (4, _) => none
    | _ => some message

instance : Absorb Line where
  blank := {}
  absorb _ message
    | (1, .varint value) => some { message with functionId := UInt64.ofNat value }
    | (2, .varint value) => some { message with line := Int64.ofNat value }
    | (1, _) | (2, _) => none
    | _ => some message

instance : Absorb Location where
  blank := {}
  absorb levels message
    | (1, .varint value) => some { message with id := UInt64.ofNat value }
    | (2, .varint value) => some { message with mappingId := UInt64.ofNat value }
    | (3, .varint value) => some { message with address := UInt64.ofNat value }
    | (4, raw) => (submessage? levels raw).map fun line =>
        { message with lines := message.lines ++ [line] }
    | (1, _) | (2, _) | (3, _) => none
    | _ => some message

instance : Absorb Function where
  blank := {}
  absorb _ message
    | (1, .varint value) => some { message with id := UInt64.ofNat value }
    | (2, .varint value) => some { message with name := Int64.ofNat value }
    | (3, .varint value) => some { message with systemName := Int64.ofNat value }
    | (4, .varint value) => some { message with filename := Int64.ofNat value }
    | (1, _) | (2, _) | (3, _) | (4, _) => none
    | _ => some message

instance : Absorb Sample where
  blank := {}
  absorb levels message
    | (1, raw) => (numbers? raw).map fun values =>
        { message with locationIds := message.locationIds ++ values.map UInt64.ofNat }
    | (2, raw) => (numbers? raw).map fun values =>
        { message with values := message.values ++ values.map Int64.ofNat }
    | (3, raw) => (submessage? levels raw).map fun label =>
        { message with labels := message.labels ++ [label] }
    | _ => some message

instance : Absorb Profile where
  blank := {}
  absorb levels message
    | (1, raw) => (submessage? levels raw).map fun valueType =>
        { message with sampleTypes := message.sampleTypes ++ [valueType] }
    | (2, raw) => (submessage? levels raw).map fun sample =>
        { message with samples := message.samples ++ [sample] }
    | (4, raw) => (submessage? levels raw).map fun location =>
        { message with locations := message.locations ++ [location] }
    | (5, raw) => (submessage? levels raw).map fun function =>
        { message with functions := message.functions ++ [function] }
    | (6, raw) => (text? raw).map fun string =>
        { message with strings := message.strings ++ [string] }
    | (9, .varint value) => some { message with timeNanos := Int64.ofNat value }
    | (10, .varint value) => some { message with durationNanos := Int64.ofNat value }
    | (14, .varint value) => some { message with defaultSampleType := Int64.ofNat value }
    | (9, _) | (10, _) | (14, _) => none
    | _ => some message

/-- How deeply messages and groups may nest, the outermost message included. -/
def maxLevels : Nat := 101

def parse? (α : Type) [Absorb α] (bytes : List UInt8) : Option α :=
  message? maxLevels bytes

end HeapSampler.Pprof
