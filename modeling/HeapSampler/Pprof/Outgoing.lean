import HeapSampler.Pprof.Message
import HeapSampler.Wire.Field

/-!
# The messages a heap profile is written from

An outgoing message holds offsets into the string table of its own profile, which fit 32 bits, and
at most one line per location.  Ids are written even when zero, and so are both number lists of a
sample and each of its labels; every other part is left out when blank.
-/

namespace HeapSampler.Pprof

/-- A position in a profile's string table.  Position zero is the empty string. -/
structure StringOffset where
  value : UInt32
  deriving DecidableEq, Repr

namespace StringOffset

def zero : StringOffset := ⟨0⟩

def ofNat? (value : Nat) : Option StringOffset :=
  if value < UInt32.size then some ⟨UInt32.ofNat value⟩ else none

def toNat (offset : StringOffset) : Nat := offset.value.toNat

def toInt64 (offset : StringOffset) : Int64 := Int64.ofNat offset.toNat

def isZero (offset : StringOffset) : Bool := offset.value = 0

instance : Ord StringOffset := ⟨compareOn value⟩

instance : Wire.Describe StringOffset :=
  ⟨fun offset => Text.wrapped "StringOffset" (toString offset.value)⟩

instance : Wire.Payload StringOffset where
  kind := .varint
  blank := zero
  size offset := Wire.Varint.size offset.toNat
  encode offset := Wire.Varint.encode offset.toNat

instance : Wire.Announces StringOffset :=
  ⟨fun offset => Wire.Varint.announce offset.value.toUInt64⟩

end StringOffset

namespace Outgoing

open HeapSampler.Wire

structure ValueType where
  type : StringOffset := .zero
  unit : StringOffset := .zero
  deriving DecidableEq, Repr

namespace ValueType

def typeField (message : ValueType) : NumberedField StringOffset := unlessBlank 1 message.type
def unitField (message : ValueType) : NumberedField StringOffset := unlessBlank 2 message.unit

instance : Payload ValueType where
  kind := .delimited
  blank := {}
  size message := message.typeField.size + message.unitField.size
  encode message := message.typeField.encode ++ message.unitField.encode

instance : Announces ValueType where
  announce message := message.typeField.announce + message.unitField.announce

instance : Describe ValueType where
  describe message :=
    Text.record "ValueType"
      [("type", describe message.typeField), ("unit", describe message.unitField)]

/-- The message as its reader sees it. -/
def received (message : ValueType) : Pprof.ValueType where
  type := message.type.toInt64
  unit := message.unit.toInt64

end ValueType

structure Label where
  key : StringOffset := .zero
  str : StringOffset := .zero
  num : Int64 := 0
  numUnit : StringOffset := .zero
  deriving DecidableEq, Repr

namespace Label

def ofString (key value : StringOffset) : Label where
  key := key
  str := value

def keyField (message : Label) : NumberedField StringOffset := unlessBlank 1 message.key
def strField (message : Label) : NumberedField StringOffset := unlessBlank 2 message.str
def numField (message : Label) : NumberedField Int64 := unlessBlank 3 message.num
def numUnitField (message : Label) : NumberedField StringOffset := unlessBlank 4 message.numUnit

instance : Payload Label where
  kind := .delimited
  blank := {}
  size message :=
    message.keyField.size + message.strField.size + message.numField.size +
      message.numUnitField.size
  encode message :=
    message.keyField.encode ++ message.strField.encode ++ message.numField.encode ++
      message.numUnitField.encode

instance : Announces Label where
  announce message :=
    message.keyField.announce + message.strField.announce + message.numField.announce +
      message.numUnitField.announce

instance : Describe Label where
  describe message :=
    Text.record "Label"
      [("key", describe message.keyField), ("str", describe message.strField),
        ("num", describe message.numField), ("num_unit", describe message.numUnitField)]

def received (message : Label) : Pprof.Label where
  key := message.key.toInt64
  str := message.str.toInt64
  num := message.num
  numUnit := message.numUnit.toInt64

end Label

structure Line where
  functionId : UInt64 := 0
  line : Int64 := 0
  deriving DecidableEq, Repr

namespace Line

def functionIdField (message : Line) : NumberedField UInt64 := unlessBlank 1 message.functionId
def lineField (message : Line) : NumberedField Int64 := unlessBlank 2 message.line

instance : Payload Line where
  kind := .delimited
  blank := {}
  size message := message.functionIdField.size + message.lineField.size
  encode message := message.functionIdField.encode ++ message.lineField.encode

instance : Announces Line where
  announce message := message.functionIdField.announce + message.lineField.announce

instance : Describe Line where
  describe message :=
    Text.record "Line"
      [("function_id", describe message.functionIdField), ("lineno", describe message.lineField)]

def received (message : Line) : Pprof.Line where
  functionId := message.functionId
  line := message.line

end Line

structure Location where
  id : UInt64 := 0
  mappingId : UInt64 := 0
  address : UInt64 := 0
  line : Line := {}
  deriving DecidableEq, Repr

namespace Location

def idField (message : Location) : NumberedField UInt64 := always 1 message.id
def mappingIdField (message : Location) : NumberedField UInt64 := unlessBlank 2 message.mappingId
def addressField (message : Location) : NumberedField UInt64 := unlessBlank 3 message.address
def lineField (message : Location) : NumberedField Line := unlessBlank 4 message.line

instance : Payload Location where
  kind := .delimited
  blank := {}
  size message :=
    message.idField.size + message.mappingIdField.size + message.addressField.size +
      message.lineField.size
  encode message :=
    message.idField.encode ++ message.mappingIdField.encode ++ message.addressField.encode ++
      message.lineField.encode

instance : Announces Location where
  announce message :=
    message.idField.announce + message.mappingIdField.announce + message.addressField.announce +
      message.lineField.announce

instance : Describe Location where
  describe message :=
    Text.record "Location"
      [("id", describe message.idField), ("mapping_id", describe message.mappingIdField),
        ("address", describe message.addressField), ("line", describe message.lineField)]

/-- The message as its reader sees it: a blank line is no line. -/
def received (message : Location) : Pprof.Location where
  id := message.id
  mappingId := message.mappingId
  address := message.address
  lines := if message.line = {} then [] else [message.line.received]

end Location

structure Function where
  id : UInt64 := 0
  name : StringOffset := .zero
  systemName : StringOffset := .zero
  filename : StringOffset := .zero
  deriving DecidableEq, Repr

namespace Function

def idField (message : Function) : NumberedField UInt64 := always 1 message.id
def nameField (message : Function) : NumberedField StringOffset := unlessBlank 2 message.name
def systemNameField (message : Function) : NumberedField StringOffset :=
  unlessBlank 3 message.systemName
def filenameField (message : Function) : NumberedField StringOffset :=
  unlessBlank 4 message.filename

instance : Payload Function where
  kind := .delimited
  blank := {}
  size message :=
    message.idField.size + message.nameField.size + message.systemNameField.size +
      message.filenameField.size
  encode message :=
    message.idField.encode ++ message.nameField.encode ++ message.systemNameField.encode ++
      message.filenameField.encode

instance : Announces Function where
  announce message :=
    message.idField.announce + message.nameField.announce + message.systemNameField.announce +
      message.filenameField.announce

instance : Describe Function where
  describe message :=
    Text.record "Function"
      [("id", describe message.idField), ("name", describe message.nameField),
        ("system_name", describe message.systemNameField),
        ("filename", describe message.filenameField)]

def received (message : Function) : Pprof.Function where
  id := message.id
  name := message.name.toInt64
  systemName := message.systemName.toInt64
  filename := message.filename.toInt64

end Function

structure Sample where
  locationIds : List UInt64 := []
  values : List Int64 := []
  labels : List Label := []
  deriving DecidableEq, Repr

namespace Sample

def locationIdsField (message : Sample) : NumberedField (List UInt64) :=
  always 1 message.locationIds
def valuesField (message : Sample) : NumberedField (List Int64) := always 2 message.values
def labelFields (message : Sample) : List (NumberedField Label) := message.labels.map (always 3)

instance : Payload Sample where
  kind := .delimited
  blank := {}
  size message :=
    message.locationIdsField.size + message.valuesField.size +
      total (message.labelFields.map NumberedField.size)
  encode message :=
    message.locationIdsField.encode ++ message.valuesField.encode ++
      message.labelFields.flatMap NumberedField.encode

instance : Announces Sample where
  announce message :=
    message.locationIdsField.announce + message.valuesField.announce +
      announceAll NumberedField.announce message.labelFields

instance : Describe Sample where
  describe message :=
    Text.record "Sample"
      [("location_ids", describe message.locationIdsField),
        ("values", describe message.valuesField), ("labels", describe message.labelFields)]

def received (message : Sample) : Pprof.Sample where
  locationIds := message.locationIds
  values := message.values
  labels := message.labels.map Label.received

end Sample

end Outgoing

end HeapSampler.Pprof
