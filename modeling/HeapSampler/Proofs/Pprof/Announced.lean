import HeapSampler.Proofs.Pprof.Messages
import HeapSampler.Proofs.Wire.Announced

/-!
# Announced lengths of messages

Each message tells the sum of what its fields tell, and each field that holds a message has a word
in front of it that tells the message's length.  The main statement is about everything that can be
written, a number as well as a whole sample, and about every field inside it: what is told, as a
number and as a word, is what is written, so a reader finds the end of each payload.
-/

namespace HeapSampler.Pprof

open HeapSampler.Wire

instance : Announces.Exact StringOffset where
  tells offset := by
    have told := Varint.tells_announce offset.value.toUInt64
    rwa [UInt32.toNat_toUInt64] at told

namespace Outgoing

section Fields

variable {α : Type} [DecidableEq α] [Payload α] [Payload.Exact α] [Announces α]
  [Announces.Exact α] {number : Nat}

theorem tells_always (usable : IsFieldNumber number) (value : α) :
    Tells (always number value).announce (always number value).encode :=
  NumberedField.tells_announce usable

theorem tells_unlessBlank (usable : IsFieldNumber number) (value : α) :
    Tells (unlessBlank number value).announce (unlessBlank number value).encode :=
  NumberedField.tells_announce usable

end Fields

instance : Announces.Exact ValueType where
  tells message :=
    (tells_unlessBlank (by decide) message.type).append (tells_unlessBlank (by decide) message.unit)

instance : Announces.Exact Label where
  tells message := by
    apply Tells.append
    · apply Tells.append
      · exact (tells_unlessBlank (by decide) message.key).append
          (tells_unlessBlank (by decide) message.str)
      · exact tells_unlessBlank (by decide) message.num
    · exact tells_unlessBlank (by decide) message.numUnit

instance : Announces.Exact Line where
  tells message :=
    (tells_unlessBlank (by decide) message.functionId).append
      (tells_unlessBlank (by decide) message.line)

instance : Announces.Exact Location where
  tells message := by
    apply Tells.append
    · apply Tells.append
      · exact (tells_always (by decide) message.id).append
          (tells_unlessBlank (by decide) message.mappingId)
      · exact tells_unlessBlank (by decide) message.address
    · exact tells_unlessBlank (by decide) message.line

instance : Announces.Exact Function where
  tells message := by
    apply Tells.append
    · apply Tells.append
      · exact (tells_always (by decide) message.id).append
          (tells_unlessBlank (by decide) message.name)
      · exact tells_unlessBlank (by decide) message.systemName
    · exact tells_unlessBlank (by decide) message.filename

instance : Announces.Exact Sample where
  tells message := by
    apply Tells.append
    · exact (tells_always (by decide) message.locationIds).append
        (tells_always (by decide) message.values)
    · apply Tells.announceAll
      intro field member
      obtain ⟨label, -, rfl⟩ := List.mem_map.mp member
      exact tells_always (by decide) label

/-! ## Fields that are as long as they say -/

section Delimits

variable {α : Type} [DecidableEq α] [Payload α] {field : NumberedField α}

/-- The payload of a field that is written fits with it, and the blank one fits by itself. -/
theorem length_payload_lt [Payload.Exact α]
    (blank_fits : Payload.size (Payload.blank : α) < 2 ^ 64)
    (fits : field.encode.length < 2 ^ 64) : (Payload.encode field.value).length < 2 ^ 64 := by
  cases omitted : field.isOmitted with
  | true =>
      rw [eq_blank_of_isOmitted omitted, ← Payload.Exact.size_eq_length]
      exact blank_fits
  | false =>
      rw [NumberedField.encode_of_written omitted, List.length_append] at fits
      omega

variable [Announces α]

/-- What a field says of its length is right, and a reader finds the end of its payload. -/
structure Delimits (field : NumberedField α) : Prop where
  payload_size : Payload.size field.value = (Payload.encode field.value).length
  payload_word : (announce field.value).toNat = (Payload.encode field.value).length
  field_size : field.size = field.encode.length
  /-- What stands in front of a payload may take the sum past the end of the word. -/
  field_word : field.announce.toNat = field.encode.length % 2 ^ 64
  prefixed : Payload.kind α = .delimited → field.isOmitted = false →
    field.encode = Varint.encode (key field.number .delimited) ++
      Varint.encode (announce field.value).toNat ++ Payload.encode field.value
  found : Payload.kind α = .delimited → field.isOmitted = false → ∀ levels rest,
    readField? levels (field.encode ++ rest) =
      some ((field.number, .delimited (Payload.encode field.value)), rest)

theorem delimits_of_fits [Payload.Exact α] [Announces.Exact α]
    (usable : IsFieldNumber field.number) (fits : (Payload.encode field.value).length < 2 ^ 64) :
    Delimits field := by
  have told : (announce field.value).toNat = (Payload.encode field.value).length :=
    Announces.Exact.tells field.value fits
  have size_eq := Payload.Exact.size_eq_length field.value
  have prefixed (delimited : Payload.kind α = .delimited) (written : field.isOmitted = false) :
      field.encode = Varint.encode (key field.number .delimited) ++
        Varint.encode (Payload.encode field.value).length ++ Payload.encode field.value := by
    rw [NumberedField.encode_of_written written, NumberedField.header, delimited, if_pos rfl,
      size_eq]
  constructor
  case payload_size => exact size_eq
  case payload_word => exact told
  case field_size => exact field.size_eq_length
  case field_word => exact NumberedField.toNat_announce usable fits
  case prefixed =>
    intro delimited written
    rw [told]
    exact prefixed delimited written
  case found =>
    intro delimited written levels rest
    rw [prefixed delimited written]
    exact readField?_delimited usable fits levels rest

end Delimits

/-! ## Everything that can be written -/

inductive Item where
  | number (value : UInt64)
  | signed (value : Int64)
  | offset (value : StringOffset)
  | text (value : String)
  | numbers (values : List UInt64)
  | signeds (values : List Int64)
  | offsets (values : List StringOffset)
  | valueType (message : ValueType)
  | label (message : Label)
  | line (message : Line)
  | location (message : Location)
  | function (message : Function)
  | sample (message : Sample)
  deriving DecidableEq, Repr

structure Frame where
  number : Nat
  omitBlank : Bool
  item : Item
  deriving DecidableEq, Repr

def Item.frames? : Item → Option (List Frame)
  | .valueType message =>
      some [⟨1, true, .offset message.type⟩, ⟨2, true, .offset message.unit⟩]
  | .label message =>
      some [⟨1, true, .offset message.key⟩, ⟨2, true, .offset message.str⟩,
        ⟨3, true, .signed message.num⟩, ⟨4, true, .offset message.numUnit⟩]
  | .line message => some [⟨1, true, .number message.functionId⟩, ⟨2, true, .signed message.line⟩]
  | .location message =>
      some [⟨1, false, .number message.id⟩, ⟨2, true, .number message.mappingId⟩,
        ⟨3, true, .number message.address⟩, ⟨4, true, .line message.line⟩]
  | .function message =>
      some [⟨1, false, .number message.id⟩, ⟨2, true, .offset message.name⟩,
        ⟨3, true, .offset message.systemName⟩, ⟨4, true, .offset message.filename⟩]
  | .sample message =>
      some (⟨1, false, .numbers message.locationIds⟩ :: ⟨2, false, .signeds message.values⟩ ::
        message.labels.map fun label => ⟨3, false, .label label⟩)
  | _ => none

namespace Frame

def about {γ : Sort*}
    (say : {α : Type} → [DecidableEq α] → [Payload α] → [Announces α] → NumberedField α → γ)
    (frame : Frame) : γ :=
  match frame.item with
  | .number value => say ⟨frame.number, frame.omitBlank, value⟩
  | .signed value => say ⟨frame.number, frame.omitBlank, value⟩
  | .offset value => say ⟨frame.number, frame.omitBlank, value⟩
  | .text value => say ⟨frame.number, frame.omitBlank, value⟩
  | .numbers values => say ⟨frame.number, frame.omitBlank, values⟩
  | .signeds values => say ⟨frame.number, frame.omitBlank, values⟩
  | .offsets values => say ⟨frame.number, frame.omitBlank, values⟩
  | .valueType message => say ⟨frame.number, frame.omitBlank, message⟩
  | .label message => say ⟨frame.number, frame.omitBlank, message⟩
  | .line message => say ⟨frame.number, frame.omitBlank, message⟩
  | .location message => say ⟨frame.number, frame.omitBlank, message⟩
  | .function message => say ⟨frame.number, frame.omitBlank, message⟩
  | .sample message => say ⟨frame.number, frame.omitBlank, message⟩

def payload (frame : Frame) : List UInt8 := frame.about fun field => Payload.encode field.value

def encode (frame : Frame) : List UInt8 := frame.about NumberedField.encode

/-- The inner field is one of those of the message in the outer field. -/
def Holds (outer inner : Frame) : Prop :=
  ∃ frames, outer.item.frames? = some frames ∧ inner ∈ frames

theorem delimits (frame : Frame) (usable : IsFieldNumber frame.number)
    (fits : frame.payload.length < 2 ^ 64) : frame.about Delimits := by
  obtain ⟨number, omitBlank, item⟩ := frame
  cases item <;> exact delimits_of_fits usable fits

/-- A message is its fields, one after the other. -/
theorem payload_eq_flatMap {frame : Frame} {frames : List Frame}
    (found : frame.item.frames? = some frames) : frame.payload = frames.flatMap encode := by
  obtain ⟨number, omitBlank, item⟩ := frame
  cases item with
  | valueType | label | line | location | function =>
      cases found
      simp only [List.flatMap_cons, List.flatMap_nil, List.append_nil, ← List.append_assoc]
      rfl
  | sample message =>
      cases found
      rw [List.flatMap_cons, List.flatMap_cons, List.flatMap_map, ← List.append_assoc]
      change _ ++ message.labelFields.flatMap NumberedField.encode = _
      rw [Sample.labelFields, List.flatMap_map]
      rfl
  | number | signed | offset | text | numbers | signeds | offsets => cases found

theorem isFieldNumber_of_mem {outer inner : Frame} {frames : List Frame}
    (found : outer.item.frames? = some frames) (member : inner ∈ frames) :
    IsFieldNumber inner.number := by
  have small : ∀ frame ∈ frames, 0 < frame.number ∧ frame.number ≤ 4 := by
    obtain ⟨number, omitBlank, item⟩ := outer
    cases item <;> cases found <;> simp
  have := small inner member
  omega

/-- A field that fits has a payload that fits, and a blank payload fits though it is left out. -/
theorem payload_fits {frame : Frame} (fits : frame.encode.length < 2 ^ 64) :
    frame.payload.length < 2 ^ 64 := by
  obtain ⟨number, omitBlank, item⟩ := frame
  cases item <;> exact length_payload_lt (by decide) fits

/-- The fields of a message that fits fit as well, and their numbers can be used. -/
theorem Holds.fits {outer inner : Frame} (holds : outer.Holds inner)
    (fits : outer.payload.length < 2 ^ 64) :
    IsFieldNumber inner.number ∧ inner.payload.length < 2 ^ 64 := by
  obtain ⟨frames, found, member⟩ := holds
  constructor
  · exact isFieldNumber_of_mem found member
  · apply payload_fits
    rw [payload_eq_flatMap found, List.flatMap_def] at fits
    have part := List.sublist_flatten_of_mem (List.mem_map_of_mem (f := encode) member)
    exact Nat.lt_of_le_of_lt part.length_le fits

theorem Holds.fits_of_inside {frame inner : Frame}
    (inside : Relation.ReflTransGen Holds frame inner)
    (usable : IsFieldNumber frame.number) (fits : frame.payload.length < 2 ^ 64) :
    IsFieldNumber inner.number ∧ inner.payload.length < 2 ^ 64 := by
  induction inside with
  | refl => exact ⟨usable, fits⟩
  | tail _ holds ih => exact holds.fits ih.2

/-- Whatever is written as a field, its length and those of the fields inside it, at any depth, are
what is told of them. -/
theorem delimits_of_inside {frame inner : Frame} (usable : IsFieldNumber frame.number)
    (fits : frame.payload.length < 2 ^ 64) (inside : Relation.ReflTransGen Holds frame inner) :
    inner.about Delimits ∧
      ∀ frames, inner.item.frames? = some frames → inner.payload = frames.flatMap encode := by
  obtain ⟨inner_usable, inner_fits⟩ := Holds.fits_of_inside inside usable fits
  constructor
  · exact inner.delimits inner_usable inner_fits
  · intro frames found
    exact payload_eq_flatMap found

/-- A sample with a place whose id takes two bytes, a negative number and a label. -/
def sampleFrame : Frame where
  number := 2
  omitBlank := false
  item := .sample
    { locationIds := [1, 300], values := [-1, 0], labels := [.ofString ⟨200⟩ ⟨3⟩] }

def labelFrame : Frame where
  number := 3
  omitBlank := false
  item := .label (.ofString ⟨200⟩ ⟨3⟩)

theorem delimits_labelFrame :
    IsFieldNumber sampleFrame.number ∧ sampleFrame.payload.length < 2 ^ 64 ∧
      Relation.ReflTransGen Holds sampleFrame labelFrame ∧ labelFrame.about Delimits ∧
      ∀ frames, labelFrame.item.frames? = some frames →
        labelFrame.payload = frames.flatMap encode := by
  have fits : sampleFrame.payload.length < 2 ^ 64 := by
    change (Payload.encode _).length < _
    rw [← Payload.Exact.size_eq_length]
    decide
  have inside : Relation.ReflTransGen Holds sampleFrame labelFrame := by
    refine .single ⟨_, rfl, ?_⟩
    decide
  exact ⟨by decide, fits, inside, delimits_of_inside (by decide) fits inside⟩

end Frame

end Outgoing

end HeapSampler.Pprof
