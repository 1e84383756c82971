import Mathlib
import HeapSampler.Proofs.Lists
import HeapSampler.Proofs.Wire.Fields
import HeapSampler.Pprof.Outgoing
import HeapSampler.Pprof.Parse

/-!
# Messages there and back

A message is read field by field, so what is written is read back if each field, read on its own,
puts into the message what it was written for.
-/

namespace HeapSampler.Pprof

open HeapSampler.Wire

/-! ## Reading on -/

section Takes

variable {α : Type} [Absorb α] {levels : Nat} {before middle after : α}

/-- To read on after these bytes is to read with the second message in place of the first. -/
def Takes (levels : Nat) (bytes : List UInt8) (before after : α) : Prop :=
  ∀ rest, (fields? levels (bytes ++ rest)).bind (·.foldlM (Absorb.absorb levels) before) =
    (fields? levels rest).bind (·.foldlM (Absorb.absorb levels) after)

theorem Takes.nil (levels : Nat) (message : α) : Takes levels [] message message :=
  fun _ => rfl

theorem Takes.append {first second : List UInt8} (one : Takes levels first before middle)
    (two : Takes levels second middle after) : Takes levels (first ++ second) before after := by
  intro rest
  rw [List.append_assoc, one, two]

theorem Takes.of_readField? {bytes : List UInt8} {field : Nat × Raw}
    (read : ∀ rest, readField? levels (bytes ++ rest) = some (field, rest))
    (absorbed : Absorb.absorb levels before field = some after) :
    Takes levels bytes before after := by
  intro rest
  cases bytes with
  | nil => cases read []
  | cons byte tail =>
      rw [List.cons_append, fields?]
      split
      · rename_i failed
        cases failed.symm.trans (read rest)
      · rename_i found after_field ended
        cases ended.symm.trans (read rest)
        cases fields? levels rest with
        | none => rfl
        | some fields =>
            rw [Option.map_some, Option.bind_some, List.foldlM_cons, absorbed]
            rfl

/-- The fields of a list are taken in one by one. -/
theorem Takes.flatMap {β γ : Type} {write : β → List UInt8} {got : β → γ} {items : List β}
    (fill : List γ → α)
    (step : ∀ item ∈ items, ∀ done,
      Takes levels (write item) (fill done) (fill (done ++ [got item])))
    (done : List γ) :
    Takes levels (items.flatMap write) (fill done) (fill (done ++ items.map got)) := by
  induction items generalizing done with
  | nil =>
      rw [List.map_nil, List.append_nil]
      exact .nil levels _
  | cons item rest ih =>
      obtain ⟨first, others⟩ := List.forall_mem_cons.mp step
      have later := ih others (done ++ [got item])
      rw [List.append_assoc, List.singleton_append] at later
      rw [List.flatMap_cons, List.map_cons]
      exact (first done).append later

theorem message?_of_takes {bytes : List UInt8} (taken : Takes levels bytes Absorb.blank after) :
    message? (levels + 1) bytes = some after := by
  have read := taken []
  rw [List.append_nil] at read
  exact read.trans (by simp [fields?])

end Takes

/-! ## Single fields -/

class Word (β : Type) [Payload β] where
  word : β → Nat
  kind_eq : Payload.kind β = .varint
  encode_eq : ∀ value : β, Payload.encode value = Varint.encode (word value)
  word_lt : ∀ value : β, word value < 2 ^ 64

instance : Word UInt64 where
  word := UInt64.toNat
  kind_eq := rfl
  encode_eq _ := rfl
  word_lt := UInt64.toNat_lt

instance : Word Int64 where
  word value := value.toUInt64.toNat
  kind_eq := rfl
  encode_eq _ := rfl
  word_lt value := UInt64.toNat_lt value.toUInt64

theorem StringOffset.toNat_lt (offset : StringOffset) : offset.toNat < 2 ^ 32 :=
  UInt32.toNat_lt offset.value

instance : Word StringOffset where
  word := StringOffset.toNat
  kind_eq := rfl
  encode_eq _ := rfl
  word_lt offset := Nat.lt_trans offset.toNat_lt (by decide)

@[simp]
theorem ofNat_word_uint64 (value : UInt64) : UInt64.ofNat (Word.word value) = value :=
  UInt64.ofNat_toNat

@[simp]
theorem ofNat_word_int64 (value : Int64) : Int64.ofNat (Word.word value) = value := by
  rw [← UInt64.toInt64_ofNat', show UInt64.ofNat (Word.word value) = value.toUInt64 from
    UInt64.ofNat_toNat]
  exact Int64.toInt64_toUInt64 value

section Fields

variable {α β : Type} [Absorb α] [DecidableEq β] [Payload β] {levels : Nat} {before after : α}
  {field : NumberedField β}

theorem eq_blank_of_isOmitted (omitted : field.isOmitted = true) :
    field.value = Payload.blank :=
  of_decide_eq_true (Bool.and_eq_true_iff.mp omitted).2

/-- A field is taken in if it can be read, and changes nothing if it is left out. -/
theorem takes_field {raw : Raw}
    (read : field.isOmitted = false →
      ∀ rest, readField? levels (field.encode ++ rest) = some ((field.number, raw), rest))
    (blank : field.value = Payload.blank → field.omitBlank = true → before = after)
    (absorbed : Absorb.absorb levels before (field.number, raw) = some after) :
    Takes levels field.encode before after := by
  cases omitted : field.isOmitted with
  | true =>
      rw [NumberedField.encode_of_isOmitted omitted,
        blank (eq_blank_of_isOmitted omitted) (Bool.and_eq_true_iff.mp omitted).1]
      exact .nil levels after
  | false => exact .of_readField? (read omitted) absorbed

theorem takes_word [Word β] (usable : IsFieldNumber field.number)
    (blank : field.value = Payload.blank → field.omitBlank = true → before = after)
    (absorbed : Absorb.absorb levels before (field.number, .varint (Word.word field.value)) =
      some after) : Takes levels field.encode before after := by
  refine takes_field (fun written rest => ?_) blank absorbed
  rw [NumberedField.encode_of_written written, NumberedField.header, Word.kind_eq,
    if_neg (by decide), List.append_nil, Word.encode_eq]
  exact readField?_varint usable (Word.word_lt field.value) levels rest

theorem takes_delimited [Payload.Exact β] (kind_eq : Payload.kind β = .delimited)
    (usable : IsFieldNumber field.number)
    (bounded : (Payload.encode field.value).length < 2 ^ 64)
    (blank : field.value = Payload.blank → field.omitBlank = true → before = after)
    (absorbed : Absorb.absorb levels before
      (field.number, .delimited (Payload.encode field.value)) = some after) :
    Takes levels field.encode before after := by
  refine takes_field (fun written rest => ?_) blank absorbed
  rw [NumberedField.encode_of_written written, NumberedField.header, kind_eq, if_pos rfl,
    Payload.Exact.size_eq_length]
  exact readField?_delimited usable bounded levels rest

variable {number : Nat} {value : β}

theorem takes_unlessBlank [Word β] (usable : IsFieldNumber number)
    (blank : value = Payload.blank → before = after)
    (absorbed : Absorb.absorb levels before (number, .varint (Word.word value)) = some after) :
    Takes levels (unlessBlank number value).encode before after :=
  takes_word usable (fun same _ => blank same) absorbed

theorem takes_always_word [Word β] (usable : IsFieldNumber number)
    (absorbed : Absorb.absorb levels before (number, .varint (Word.word value)) = some after) :
    Takes levels (always number value).encode before after :=
  takes_word usable (fun _ impossible => nomatch impossible) absorbed

theorem length_encode_le_of_word [Word β] {omitBlank : Bool} (small : number < 16) :
    (⟨number, omitBlank, value⟩ : NumberedField β).encode.length ≤
      1 + Varint.size (Word.word value) := by
  cases omitted : (⟨number, omitBlank, value⟩ : NumberedField β).isOmitted with
  | true =>
      rw [NumberedField.encode_of_isOmitted omitted]
      exact Nat.zero_le _
  | false =>
      have key_small : key number .varint < 128 := by
        simp only [key, WireKind.code]
        omega
      rw [NumberedField.encode_of_written omitted, NumberedField.header, Word.kind_eq,
        if_neg (by decide), List.append_nil, Word.encode_eq, List.length_append,
        ← Varint.size_eq_length, ← Varint.size_eq_length, Varint.size_of_lt key_small]

theorem length_encode_le [Word β] {omitBlank : Bool} (small : number < 16) :
    (⟨number, omitBlank, value⟩ : NumberedField β).encode.length ≤ 11 := by
  refine Nat.le_trans (length_encode_le_of_word small) ?_
  exact Nat.add_le_add_left (Varint.size_le_maxSize (Word.word_lt value)) 1

/-- A payload of any length that can be told has at most eleven bytes in front of it. -/
theorem length_delimited_le (kind_eq : Payload.kind β = .delimited) [Payload.Exact β]
    {omitBlank : Bool} (small : number < 16) (bounded : (Payload.encode value).length < 2 ^ 64) :
    (⟨number, omitBlank, value⟩ : NumberedField β).encode.length ≤
      11 + (Payload.encode value).length := by
  cases omitted : (⟨number, omitBlank, value⟩ : NumberedField β).isOmitted with
  | true =>
      rw [NumberedField.encode_of_isOmitted omitted]
      exact Nat.zero_le _
  | false =>
      have key_small : key number .delimited < 128 := by
        simp only [key, WireKind.code]
        omega
      have digits := Varint.size_le_maxSize bounded
      simp only [Varint.maxSize] at digits
      rw [NumberedField.encode_of_written omitted, NumberedField.header, kind_eq, if_pos rfl,
        Payload.Exact.size_eq_length, List.length_append, List.length_append,
        ← Varint.size_eq_length, ← Varint.size_eq_length, Varint.size_of_lt key_small]
      simp only
      omega

theorem length_payload_le (number : Nat) (value : β) :
    (Payload.encode value).length ≤ (always number value).encode.length := by
  rw [NumberedField.encode_of_written rfl, List.length_append]
  exact Nat.le_add_left _ _

theorem takes_always_delimited [Payload.Exact β] (kind_eq : Payload.kind β = .delimited)
    (usable : IsFieldNumber number) (bounded : (Payload.encode value).length < 2 ^ 64)
    (absorbed : Absorb.absorb levels before (number, .delimited (Payload.encode value)) =
      some after) : Takes levels (always number value).encode before after :=
  takes_delimited kind_eq usable bounded (fun _ impossible => nomatch impossible) absorbed

end Fields

/-- A packed list of numbers is unpacked to these numbers. -/
theorem packed?_flatMap {β : Type} [Payload β] [Word β] (values : List β) :
    packed? (values.flatMap Payload.encode) = some (values.map Word.word) := by
  induction values with
  | nil => simp [packed?]
  | cons value rest ih =>
      have read := Varint.decode?_encode (Word.word_lt value) (rest.flatMap Payload.encode)
      rw [List.flatMap_cons, Word.encode_eq]
      obtain ⟨byte, tail, written⟩ :=
        List.exists_cons_of_ne_nil (Varint.encode_ne_nil (Word.word value))
      rw [written, List.cons_append] at read ⊢
      rw [packed?]
      split
      · rename_i failed
        cases failed.symm.trans read
      · rename_i number remaining found
        cases found.symm.trans read
        rw [ih, Option.map_some, List.map_cons]

theorem numbers?_encode {β : Type} [Payload β] [Word β] (values : List β) :
    numbers? (.delimited (Payload.encode values)) = some (values.map Word.word) :=
  packed?_flatMap values

/-! ## Sizes of messages -/

instance : Payload.Exact StringOffset := ⟨fun value => Varint.size_eq_length value.toNat⟩

namespace Outgoing

instance : Payload.Exact ValueType where
  size_eq_length message := by
    simp only [Payload.size, Payload.encode, List.length_append, NumberedField.size_eq_length]

instance : Payload.Exact Label where
  size_eq_length message := by
    simp only [Payload.size, Payload.encode, List.length_append, NumberedField.size_eq_length]

instance : Payload.Exact Line where
  size_eq_length message := by
    simp only [Payload.size, Payload.encode, List.length_append, NumberedField.size_eq_length]

instance : Payload.Exact Location where
  size_eq_length message := by
    simp only [Payload.size, Payload.encode, List.length_append, NumberedField.size_eq_length]

instance : Payload.Exact Function where
  size_eq_length message := by
    simp only [Payload.size, Payload.encode, List.length_append, NumberedField.size_eq_length]

instance : Payload.Exact Sample where
  size_eq_length message := by
    simp only [Payload.size, Payload.encode, List.length_append, NumberedField.size_eq_length]
    rw [total_eq_length fun field _ => field.size_eq_length]

/-! ## Messages of numbers -/

variable {levels : Nat}

theorem message?_valueType (message : ValueType) :
    message? (levels + 1) (Payload.encode message) = some message.received := by
  have type : Takes levels message.typeField.encode Absorb.blank
      ({ type := message.type.toInt64 } : Pprof.ValueType) :=
    takes_unlessBlank (by decide) (fun blank => by rw [blank]; rfl) rfl
  have unit : Takes levels message.unitField.encode { type := message.type.toInt64 }
      ({ type := message.type.toInt64, unit := message.unit.toInt64 } : Pprof.ValueType) :=
    takes_unlessBlank (by decide) (fun blank => by rw [blank]; rfl) rfl
  exact message?_of_takes (type.append unit)

theorem message?_label (message : Label) :
    message? (levels + 1) (Payload.encode message) = some message.received := by
  have key : Takes levels message.keyField.encode Absorb.blank
      ({ key := message.key.toInt64 } : Pprof.Label) :=
    takes_unlessBlank (by decide) (fun blank => by rw [blank]; rfl) rfl
  have str : Takes levels message.strField.encode { key := message.key.toInt64 }
      ({ key := message.key.toInt64, str := message.str.toInt64 } : Pprof.Label) :=
    takes_unlessBlank (by decide) (fun blank => by rw [blank]; rfl) rfl
  have num : Takes levels message.numField.encode
      { key := message.key.toInt64, str := message.str.toInt64 }
      ({ key := message.key.toInt64, str := message.str.toInt64, num := message.num } :
        Pprof.Label) :=
    takes_unlessBlank (by decide) (fun blank => by rw [blank]; rfl) (by simp [Absorb.absorb])
  have numUnit : Takes levels message.numUnitField.encode
      { key := message.key.toInt64, str := message.str.toInt64, num := message.num }
      ({ key := message.key.toInt64, str := message.str.toInt64, num := message.num,
         numUnit := message.numUnit.toInt64 } : Pprof.Label) :=
    takes_unlessBlank (by decide) (fun blank => by rw [blank]; rfl) rfl
  exact message?_of_takes (((key.append str).append num).append numUnit)

theorem message?_line (message : Line) :
    message? (levels + 1) (Payload.encode message) = some message.received := by
  have functionId : Takes levels message.functionIdField.encode Absorb.blank
      ({ functionId := message.functionId } : Pprof.Line) :=
    takes_unlessBlank (by decide) (fun blank => by rw [blank]; rfl)
      (by simp [Absorb.absorb, Absorb.blank])
  have line : Takes levels message.lineField.encode { functionId := message.functionId }
      ({ functionId := message.functionId, line := message.line } : Pprof.Line) :=
    takes_unlessBlank (by decide) (fun blank => by rw [blank]; rfl) (by simp [Absorb.absorb])
  exact message?_of_takes (functionId.append line)

theorem message?_function (message : Function) :
    message? (levels + 1) (Payload.encode message) = some message.received := by
  have id : Takes levels message.idField.encode Absorb.blank
      ({ id := message.id } : Pprof.Function) :=
    takes_always_word (by decide) (by simp [Absorb.absorb, Absorb.blank])
  have name : Takes levels message.nameField.encode { id := message.id }
      ({ id := message.id, name := message.name.toInt64 } : Pprof.Function) :=
    takes_unlessBlank (by decide) (fun blank => by rw [blank]; rfl) rfl
  have systemName : Takes levels message.systemNameField.encode
      { id := message.id, name := message.name.toInt64 }
      ({ id := message.id, name := message.name.toInt64,
         systemName := message.systemName.toInt64 } : Pprof.Function) :=
    takes_unlessBlank (by decide) (fun blank => by rw [blank]; rfl) rfl
  have filename : Takes levels message.filenameField.encode
      { id := message.id, name := message.name.toInt64,
        systemName := message.systemName.toInt64 }
      ({ id := message.id, name := message.name.toInt64,
         systemName := message.systemName.toInt64, filename := message.filename.toInt64 } :
        Pprof.Function) :=
    takes_unlessBlank (by decide) (fun blank => by rw [blank]; rfl) rfl
  exact message?_of_takes (((id.append name).append systemName).append filename)

/-! ## Messages of messages -/

theorem length_line_le (message : Line) : (Payload.encode message).length ≤ 22 := by
  have functionId : message.functionIdField.encode.length ≤ 11 := length_encode_le (by decide)
  have line : message.lineField.encode.length ≤ 11 := length_encode_le (by decide)
  simp only [Payload.encode, List.length_append]
  omega

theorem length_label_le (message : Label) : (Payload.encode message).length ≤ 44 := by
  have key : message.keyField.encode.length ≤ 11 := length_encode_le (by decide)
  have str : message.strField.encode.length ≤ 11 := length_encode_le (by decide)
  have num : message.numField.encode.length ≤ 11 := length_encode_le (by decide)
  have numUnit : message.numUnitField.encode.length ≤ 11 := length_encode_le (by decide)
  simp only [Payload.encode, List.length_append]
  omega

theorem length_valueType_le (message : ValueType) : (Payload.encode message).length ≤ 22 := by
  have type : message.typeField.encode.length ≤ 11 := length_encode_le (by decide)
  have unit : message.unitField.encode.length ≤ 11 := length_encode_le (by decide)
  simp only [Payload.encode, List.length_append]
  omega

theorem length_function_le (message : Function) : (Payload.encode message).length ≤ 44 := by
  have id : message.idField.encode.length ≤ 11 := length_encode_le (by decide)
  have name : message.nameField.encode.length ≤ 11 := length_encode_le (by decide)
  have systemName : message.systemNameField.encode.length ≤ 11 := length_encode_le (by decide)
  have filename : message.filenameField.encode.length ≤ 11 := length_encode_le (by decide)
  simp only [Payload.encode, List.length_append]
  omega

theorem length_location_le (message : Location) : (Payload.encode message).length ≤ 66 := by
  have id : message.idField.encode.length ≤ 11 := length_encode_le (by decide)
  have mappingId : message.mappingIdField.encode.length ≤ 11 := length_encode_le (by decide)
  have address : message.addressField.encode.length ≤ 11 := length_encode_le (by decide)
  have line_payload := length_line_le message.line
  have line : message.lineField.encode.length ≤ 11 + (Payload.encode message.line).length :=
    length_delimited_le rfl (by decide) (Nat.lt_of_le_of_lt line_payload (by decide))
  simp only [Payload.encode, List.length_append]
  simp only [Payload.encode, List.length_append] at line line_payload
  omega

/-- The words of a list take at most ten bytes each. -/
theorem length_words_le {β : Type} [Payload β] [Word β] (values : List β) :
    (Payload.encode values).length ≤ 10 * values.length := by
  refine length_flatMap_le fun value _ => ?_
  rw [Word.encode_eq, ← Varint.size_eq_length]
  exact Varint.size_le_maxSize (Word.word_lt value)

/-- A label whose value is a string takes little more than its two offsets. -/
theorem length_ofString_le (key str : StringOffset) :
    (Payload.encode (Label.ofString key str)).length ≤ 12 := by
  have offset_le (offset : StringOffset) : Varint.size (Word.word offset) ≤ 5 :=
    Varint.size_le (Nat.lt_trans offset.toNat_lt (by decide))
  have key_le : (Label.ofString key str).keyField.encode.length ≤ 1 + _ :=
    length_encode_le_of_word (by decide)
  have str_le : (Label.ofString key str).strField.encode.length ≤ 1 + _ :=
    length_encode_le_of_word (by decide)
  have num : (Label.ofString key str).numField.encode = [] :=
    NumberedField.encode_of_isOmitted rfl
  have numUnit : (Label.ofString key str).numUnitField.encode = [] :=
    NumberedField.encode_of_isOmitted rfl
  have key_size := offset_le (Label.ofString key str).key
  have str_size := offset_le (Label.ofString key str).str
  simp only [Payload.encode, num, numUnit, List.append_nil, List.length_append]
  omega

/-- The length of a sample can be told if it has few places, values and labels. -/
theorem length_sample_lt {message : Sample} (locations : message.locationIds.length < 2 ^ 58)
    (values : message.values.length ≤ 2) (labels : message.labels.length < 2 ^ 59)
    (plain : ∀ label ∈ message.labels, label = .ofString label.key label.str) :
    (Payload.encode message).length < 2 ^ 64 := by
  have ids_payload := length_words_le message.locationIds
  have ids : message.locationIdsField.encode.length ≤
      11 + (Payload.encode message.locationIds).length :=
    length_delimited_le rfl (by decide) (by omega)
  have values_payload := length_words_le message.values
  have numbers : message.valuesField.encode.length ≤
      11 + (Payload.encode message.values).length :=
    length_delimited_le rfl (by decide) (by omega)
  have fields : (message.labelFields.flatMap NumberedField.encode).length ≤
      23 * message.labels.length := by
    rw [Sample.labelFields, List.flatMap_map]
    refine length_flatMap_le fun label member => ?_
    have payload := length_ofString_le label.key label.str
    rw [← plain label member] at payload
    have field : (always 3 label).encode.length ≤ 11 + (Payload.encode label).length :=
      length_delimited_le rfl (by decide) (by omega)
    exact field.trans (Nat.add_le_add_left payload 11)
  simp only [Payload.encode, List.length_append] at *
  omega

theorem message?_location (message : Location) :
    message? (levels + 2) (Payload.encode message) = some message.received := by
  have id : Takes (levels + 1) message.idField.encode Absorb.blank
      ({ id := message.id } : Pprof.Location) :=
    takes_always_word (by decide) (by simp [Absorb.absorb, Absorb.blank])
  have mappingId : Takes (levels + 1) message.mappingIdField.encode { id := message.id }
      ({ id := message.id, mappingId := message.mappingId } : Pprof.Location) :=
    takes_unlessBlank (by decide) (fun blank => by rw [blank]; rfl) (by simp [Absorb.absorb])
  have address : Takes (levels + 1) message.addressField.encode
      { id := message.id, mappingId := message.mappingId }
      ({ id := message.id, mappingId := message.mappingId, address := message.address } :
        Pprof.Location) :=
    takes_unlessBlank (by decide) (fun blank => by rw [blank]; rfl) (by simp [Absorb.absorb])
  have line : Takes (levels + 1) message.lineField.encode
      { id := message.id, mappingId := message.mappingId, address := message.address }
      message.received := by
    by_cases blank : message.line = {}
    · have omitted : message.lineField.isOmitted = true := decide_eq_true blank
      rw [NumberedField.encode_of_isOmitted omitted, Location.received, if_pos blank]
      exact .nil _ _
    · have short := length_line_le message.line
      refine takes_delimited rfl (show IsFieldNumber 4 by decide)
        (Nat.lt_of_le_of_lt short (by decide)) (fun same _ => absurd same blank) ?_
      rw [Location.received, if_neg blank]
      exact congrArg (Option.map _) (message?_line message.line)
  exact message?_of_takes (((id.append mappingId).append address).append line)

theorem message?_sample (message : Sample) (bounded : (Payload.encode message).length < 2 ^ 64) :
    message? (levels + 2) (Payload.encode message) = some message.received := by
  have lengths : message.locationIdsField.encode.length + message.valuesField.encode.length +
      (message.labelFields.flatMap NumberedField.encode).length < 2 ^ 64 := by
    rw [← List.length_append, ← List.length_append]
    exact bounded
  have locationIds : Takes (levels + 1) message.locationIdsField.encode Absorb.blank
      ({ locationIds := message.locationIds } : Pprof.Sample) := by
    have short := length_payload_le 1 message.locationIds
    refine takes_always_delimited rfl (by decide) ?_ ?_
    · simp only [Sample.locationIdsField] at lengths
      omega
    · have same : (message.locationIds.map Word.word).map UInt64.ofNat = message.locationIds := by
        simp [List.map_map, Function.comp_def]
      simp [Absorb.absorb, Absorb.blank, numbers?_encode, same]
  have values : Takes (levels + 1) message.valuesField.encode
      { locationIds := message.locationIds }
      ({ locationIds := message.locationIds, values := message.values } : Pprof.Sample) := by
    have short := length_payload_le 2 message.values
    refine takes_always_delimited rfl (by decide) ?_ ?_
    · simp only [Sample.valuesField] at lengths
      omega
    · have same : (message.values.map Word.word).map Int64.ofNat = message.values := by
        simp [List.map_map, Function.comp_def]
      simp [Absorb.absorb, numbers?_encode, same]
  have labels : Takes (levels + 1) (message.labelFields.flatMap NumberedField.encode)
      { locationIds := message.locationIds, values := message.values } message.received := by
    rw [Sample.labelFields, List.flatMap_map]
    exact Takes.flatMap
      (fun labels => ({ locationIds := message.locationIds, values := message.values, labels } :
        Pprof.Sample))
      (fun label _ done => takes_always_delimited rfl (by decide)
        (Nat.lt_of_le_of_lt (length_label_le label) (by decide))
        (congrArg (Option.map _) (message?_label label))) []
  exact message?_of_takes ((locationIds.append values).append labels)

end Outgoing

end HeapSampler.Pprof
