import HeapSampler.Wire.Raw
import HeapSampler.Text.Layout
import HeapSampler.Text.Characters

/-!
# Writing fields

A field is a number, a payload, and a choice whether a blank payload is left out.  A payload whose
kind is `delimited` goes behind its length, so every payload has to know its length before it is
written.  `NumberedField.size` is that forecast for the whole field, `NumberedField.encode` the
bytes themselves.  A machine tells sizes in 64-bit words, whose sums wrap around; that is
`NumberedField.announce`.
-/

namespace HeapSampler.Wire

class Payload (α : Type) where
  /-- How the payload's extent is told. -/
  kind : WireKind
  /-- The value that stands for an absent field. -/
  blank : α
  /-- The number of bytes `encode` writes. -/
  size : α → Nat
  /-- The payload alone, without its key and length. -/
  encode : α → List UInt8

structure NumberedField (α : Type) where
  number : Nat
  /-- Whether the field is left out when its value is blank. -/
  omitBlank : Bool
  value : α
  deriving DecidableEq, Repr

namespace NumberedField

variable {α : Type} [DecidableEq α] [Payload α]

def isOmitted (field : NumberedField α) : Bool :=
  field.omitBlank && decide (field.value = Payload.blank)

def header (field : NumberedField α) : List UInt8 :=
  Varint.encode (key field.number (Payload.kind α)) ++
    if Payload.kind α = .delimited then Varint.encode (Payload.size field.value) else []

def size (field : NumberedField α) : Nat :=
  if field.isOmitted then 0
  else
    Varint.size (key field.number (Payload.kind α)) +
      (if Payload.kind α = .delimited then Varint.size (Payload.size field.value) else 0) +
      Payload.size field.value

def encode (field : NumberedField α) : List UInt8 :=
  if field.isOmitted then [] else field.header ++ Payload.encode field.value

end NumberedField

def always {α : Type} (number : Nat) (value : α) : NumberedField α :=
  ⟨number, false, value⟩

def unlessBlank {α : Type} (number : Nat) (value : α) : NumberedField α :=
  ⟨number, true, value⟩

instance : Payload UInt64 where
  kind := .varint
  blank := 0
  size value := Varint.size value.toNat
  encode value := Varint.encode value.toNat

/-- Signed numbers are sent as their two's complement, so negative ones take ten bytes. -/
instance : Payload Int64 where
  kind := .varint
  blank := 0
  size value := Varint.size value.toUInt64.toNat
  encode value := Varint.encode value.toUInt64.toNat

instance : Payload String where
  kind := .delimited
  blank := ""
  size value := value.utf8ByteSize
  encode value := value.toUTF8.toList

def total : List Nat → Nat
  | [] => 0
  | first :: rest => first + total rest

/-- Lists of numbers are packed: the payloads follow one another without keys. -/
instance {α : Type} [Payload α] : Payload (List α) where
  kind := .delimited
  blank := []
  size values := total (values.map Payload.size)
  encode values := values.flatMap Payload.encode

/-! ## Sizes in machine words -/

def keyWord (number : UInt32) (kind : WireKind) : UInt32 :=
  (number <<< 3) ||| UInt32.ofNat kind.code

/-- Payloads that tell their size in a word. -/
class Announces (α : Type) where
  announce : α → UInt64

export Announces (announce)

def NumberedField.announce {α : Type} [DecidableEq α] [Payload α] [Announces α]
    (field : NumberedField α) : UInt64 :=
  if field.isOmitted then 0
  else
    Varint.announce (keyWord (UInt32.ofNat field.number) (Payload.kind α)).toUInt64 +
      (if Payload.kind α = .delimited then
        Varint.announce (Announces.announce field.value) else 0) +
      Announces.announce field.value

def announceAll {α : Type} (tell : α → UInt64) (items : List α) : UInt64 :=
  items.foldl (fun sum item => sum + tell item) 0

instance : Announces UInt64 := ⟨Varint.announce⟩

instance : Announces Int64 := ⟨fun value => Varint.announce value.toUInt64⟩

instance : Announces String := ⟨fun value => UInt64.ofNat value.utf8ByteSize⟩

instance {α : Type} [Announces α] : Announces (List α) := ⟨announceAll announce⟩

/-! ## Diagnostic texts -/

class Describe (α : Type) where
  describe : α → String

export Describe (describe)

instance : Describe UInt64 := ⟨toString⟩

instance : Describe Int64 := ⟨toString⟩

instance : Describe String := ⟨Text.quoted⟩

instance {α : Type} [Describe α] : Describe (List α) :=
  ⟨fun values => Text.bracketed (values.map describe)⟩

instance {α : Type} [Describe α] : Describe (NumberedField α) where
  describe field :=
    Text.record "Record"
      [("value", describe field.value), ("number", toString field.number),
        ("optimize_for_zero", Text.truth field.omitBlank)]

end HeapSampler.Wire
