import Mathlib
import HeapSampler.Proofs.Pprof.Messages
import HeapSampler.Pprof.Canonical

/-!
# Which messages are written canonically

A message is written with its id and its lists of numbers even where the canonical form leaves them
out, namely where the id is zero or a list is empty.  Nothing else tells the two forms apart, so a
message has its canonical bytes exactly when it has nothing of that kind.
-/

namespace HeapSampler.Pprof

open HeapSampler.Wire

/-! ## Numbers -/

section Numbers

variable {β : Type} [DecidableEq β] [Payload β]

/-- A number that is left out when blank has its canonical bytes if the blank one is zero. -/
theorem encode_unlessBlank [Word β] (number : Nat) {value : β}
    (zero_iff : Word.word value = 0 ↔ value = Payload.blank) :
    (unlessBlank number value).encode = Canonical.word number (.ofNat (Word.word value)) := by
  have toNat_eq : (UInt64.ofNat (Word.word value)).toNat = Word.word value :=
    UInt64.toNat_ofNat_of_lt' (Word.word_lt value)
  unfold Canonical.word
  split
  · rename_i zero
    rw [zero] at toNat_eq
    exact NumberedField.encode_of_isOmitted (decide_eq_true (zero_iff.mp toNat_eq.symm))
  · rename_i nonzero
    have written : (unlessBlank number value).isOmitted = false := by
      refine decide_eq_false fun blank => nonzero ?_
      rw [zero_iff.mpr blank]
      rfl
    rw [NumberedField.encode_of_written written, NumberedField.header, Word.kind_eq,
      if_neg (by decide), List.append_nil, Word.encode_eq, toNat_eq]
    rfl

@[simp]
theorem encode_unlessBlank_word (number : Nat) (value : UInt64) :
    (unlessBlank number value).encode = Canonical.word number value := by
  have zero_iff : Word.word value = 0 ↔ value = 0 := by
    constructor
    · intro zero
      exact UInt64.toNat_inj.mp zero
    · rintro rfl
      rfl
  rw [encode_unlessBlank number zero_iff, ofNat_word_uint64]

@[simp]
theorem encode_unlessBlank_integer (number : Nat) (value : Int64) :
    (unlessBlank number value).encode = Canonical.integer number value := by
  have zero_iff : Word.word value = 0 ↔ value = 0 := by
    constructor
    · intro zero
      have word_zero : value.toUInt64 = 0 := UInt64.toNat_inj.mp zero
      rw [← Int64.toInt64_toUInt64 value, word_zero]
      rfl
    · rintro rfl
      rfl
  rw [encode_unlessBlank number zero_iff, Canonical.integer]
  exact congrArg (Canonical.word number) UInt64.ofNat_toNat

/-- An offset is read as a signed number. -/
@[simp]
theorem encode_unlessBlank_offset (number : Nat) (offset : StringOffset) :
    (unlessBlank number offset).encode = Canonical.integer number offset.toInt64 := by
  have zero_iff : Word.word offset = 0 ↔ offset = .zero := by
    constructor
    · intro zero
      exact congrArg StringOffset.mk (UInt32.toNat_inj.mp zero)
    · rintro rfl
      rfl
  rw [encode_unlessBlank number zero_iff, Canonical.integer, StringOffset.toInt64,
    ← UInt64.toInt64_ofNat', UInt64.toUInt64_toInt64]
  rfl

theorem encode_always_ne_nil (number : Nat) (value : β) : (always number value).encode ≠ [] := by
  rw [NumberedField.encode_of_written rfl, NumberedField.header, List.append_assoc]
  exact List.append_ne_nil_of_left_ne_nil (Varint.encode_ne_nil _) _

end Numbers

/-- An id is written canonically unless it is zero. -/
theorem encode_always_word_eq_iff (number : Nat) (id : UInt64) :
    (always number id).encode = Canonical.word number id ↔ id ≠ 0 := by
  constructor
  · rintro same rfl
    exact encode_always_ne_nil number (0 : UInt64) same
  · intro nonzero
    rw [Canonical.word, if_neg nonzero, NumberedField.encode_of_written rfl, NumberedField.header,
      Word.kind_eq, if_neg (by decide), List.append_nil]
    rfl

/-! ## Payloads behind their lengths -/

section Delimited

variable {β : Type} [DecidableEq β] [Payload β]

theorem encode_always_delimited [Payload.Exact β] (kind_eq : Payload.kind β = .delimited)
    (number : Nat) (value : β) :
    (always number value).encode = Canonical.delimited number (Payload.encode value) := by
  rw [NumberedField.encode_of_written rfl, NumberedField.header, kind_eq, if_pos rfl,
    Payload.Exact.size_eq_length]
  rfl

/-- A list of numbers is written canonically unless it is empty. -/
theorem encode_always_list_eq_iff [Payload.Exact β] [Word β] (number : Nat) (values : List β) :
    (always number values).encode =
      Canonical.words number (values.map fun value => .ofNat (Word.word value)) ↔ values ≠ [] := by
  constructor
  · rintro same rfl
    exact encode_always_ne_nil number ([] : List β) same
  · intro filled
    have payload_eq : Payload.encode values =
        (values.map fun value => UInt64.ofNat (Word.word value)).flatMap
          fun value => Varint.encode value.toNat := by
      rw [List.flatMap_map]
      refine congrArg (List.flatMap · values) (funext fun value => ?_)
      rw [Word.encode_eq, UInt64.toNat_ofNat_of_lt' (Word.word_lt value)]
    rw [encode_always_delimited rfl, payload_eq, Canonical.words,
      if_neg (by simpa using filled)]

end Delimited

theorem encode_always_words_eq_iff (number : Nat) (values : List UInt64) :
    (always number values).encode = Canonical.words number values ↔ values ≠ [] := by
  have same := encode_always_list_eq_iff number values
  rwa [List.map_congr_left fun value _ => ofNat_word_uint64 value, List.map_id'] at same

theorem encode_always_integers_eq_iff (number : Nat) (values : List Int64) :
    (always number values).encode = Canonical.integers number values ↔ values ≠ [] := by
  have same := encode_always_list_eq_iff number values
  rwa [List.map_congr_left fun value _ => show _ = value.toUInt64 from UInt64.ofNat_toNat] at same

theorem length_words_le_always (number : Nat) (values : List UInt64) :
    (Canonical.words number values).length ≤ (always number values).encode.length := by
  by_cases filled : values = []
  · rw [filled]
    exact Nat.zero_le _
  · rw [(encode_always_words_eq_iff number values).mpr filled]

theorem length_integers_le_always (number : Nat) (values : List Int64) :
    (Canonical.integers number values).length ≤ (always number values).encode.length := by
  by_cases filled : values = []
  · rw [filled]
    exact Nat.zero_le _
  · rw [(encode_always_integers_eq_iff number values).mpr filled]

theorem size_mono {small large : Nat} (below : small ≤ large) :
    Varint.size small ≤ Varint.size large := by
  rw [Varint.size, Varint.size, Nat.log2_eq_log_two, Nat.log2_eq_log_two]
  exact Nat.succ_le_succ (Nat.div_le_div_right (Nat.log_mono_right below))

theorem length_delimited (number : Nat) (payload : List UInt8) :
    (Canonical.delimited number payload).length =
      Varint.size (key number .delimited) + Varint.size payload.length + payload.length := by
  rw [Canonical.delimited, List.length_append, List.length_append, Varint.size_eq_length,
    Varint.size_eq_length]

section Lengths

variable {number : Nat} {short long : List UInt8}

/-- A longer payload has no shorter length in front of it. -/
theorem length_delimited_mono (number : Nat) (shorter : short.length ≤ long.length) :
    (Canonical.delimited number short).length ≤ (Canonical.delimited number long).length := by
  have size_le := size_mono shorter
  rw [length_delimited, length_delimited]
  omega

theorem delimited_eq_iff_of_le (shorter : short.length ≤ long.length) :
    Canonical.delimited number long = Canonical.delimited number short ↔ long = short := by
  constructor
  · intro same
    have size_le := size_mono shorter
    have length_eq := congrArg List.length same
    rw [length_delimited, length_delimited] at length_eq
    exact List.append_inj_right' same (by omega)
  · rintro rfl
    rfl

end Lengths

/-! ## Messages -/

namespace Outgoing

theorem encode_valueType (message : ValueType) :
    Payload.encode message = Canonical.valueType message.received := by
  simp [Payload.encode, ValueType.typeField, ValueType.unitField, Canonical.valueType,
    ValueType.received]

theorem encode_label (message : Label) :
    Payload.encode message = Canonical.label message.received := by
  simp [Payload.encode, Label.keyField, Label.strField, Label.numField, Label.numUnitField,
    Canonical.label, Label.received]

theorem encode_line (message : Line) :
    Payload.encode message = Canonical.line message.received := by
  simp [Payload.encode, Line.functionIdField, Line.lineField, Canonical.line, Line.received]

/-- A line is left out when blank, and a reader sees none. -/
theorem encode_lineField (message : Location) :
    message.lineField.encode =
      message.received.lines.flatMap (Canonical.delimited 4 <| Canonical.line ·) := by
  unfold Location.received
  split
  · rename_i blank
    exact NumberedField.encode_of_isOmitted (decide_eq_true blank)
  · rename_i filled
    have written : message.lineField.isOmitted = false := decide_eq_false filled
    rw [NumberedField.encode_of_written written, List.flatMap_singleton, ← encode_line,
      ← encode_always_delimited rfl, NumberedField.encode_of_written rfl]
    rfl

theorem encode_location_eq_iff (message : Location) :
    Payload.encode message = Canonical.location message.received ↔ message.id ≠ 0 := by
  simp only [Payload.encode, Canonical.location, Location.mappingIdField, Location.addressField,
    encode_unlessBlank_word, encode_lineField]
  rw [List.append_left_inj, Location.received, List.append_left_inj, List.append_left_inj]
  exact encode_always_word_eq_iff 1 message.id

theorem encode_function_eq_iff (message : Function) :
    Payload.encode message = Canonical.function message.received ↔ message.id ≠ 0 := by
  simp only [Payload.encode, Canonical.function, Function.received, Function.nameField,
    Function.systemNameField, Function.filenameField, encode_unlessBlank_offset,
    List.append_left_inj]
  exact encode_always_word_eq_iff 1 message.id

theorem encode_labelFields (message : Sample) :
    message.labelFields.flatMap NumberedField.encode =
      message.received.labels.flatMap (Canonical.delimited 3 <| Canonical.label ·) := by
  rw [Sample.labelFields, Sample.received, List.flatMap_map, List.flatMap_map]
  refine congrArg (List.flatMap · message.labels) (funext fun label => ?_)
  rw [encode_always_delimited rfl, encode_label]

theorem encode_sample (message : Sample) :
    Payload.encode message = message.locationIdsField.encode ++ message.valuesField.encode ++
      message.received.labels.flatMap (Canonical.delimited 3 <| Canonical.label ·) := by
  rw [← encode_labelFields]
  rfl

theorem encode_sample_eq_iff (message : Sample) :
    Payload.encode message = Canonical.sample message.received ↔
      message.locationIds ≠ [] ∧ message.values ≠ [] := by
  rw [encode_sample, Canonical.sample, List.append_left_inj,
    ← encode_always_words_eq_iff 1 message.locationIds,
    ← encode_always_integers_eq_iff 2 message.values]
  exact append_eq_append_iff_of_le (length_words_le_always 1 message.locationIds)
    (length_integers_le_always 2 message.values)

/-- The canonical form of a sample is no longer than what is written for it. -/
theorem length_canonical_sample_le (message : Sample) :
    (Canonical.sample message.received).length ≤ (Payload.encode message).length := by
  have ids_le := length_words_le_always 1 message.locationIds
  have values_le := length_integers_le_always 2 message.values
  rw [encode_sample, Canonical.sample, List.length_append, List.length_append, List.length_append,
    List.length_append]
  exact Nat.add_le_add_right (Nat.add_le_add ids_le values_le) _

end Outgoing

end HeapSampler.Pprof
