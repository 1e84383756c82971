import Mathlib
import HeapSampler.Proofs.Wire.Varint
import HeapSampler.Wire.Field

/-!
# Fields there and back

The size that is told of a payload or a field is the number of bytes that are written for it, so a
reader finds the end of each payload where its writer has put it.
-/

namespace HeapSampler.Wire

/-! ## Text as bytes -/

theorem toList_loop (bytes : ByteArray) (index : Nat) (read : List UInt8) :
    ByteArray.toList.loop bytes index read = read.reverse ++ bytes.data.toList.drop index := by
  fun_induction ByteArray.toList.loop bytes index read with
  | case1 index read inside ih =>
      have inside' : index < bytes.data.toList.length := by simpa using inside
      have first : bytes.get! index = bytes.data.toList[index] := by
        simp [ByteArray.get!, inside]
      rw [ih, List.drop_eq_getElem_cons inside', first, List.reverse_cons, List.append_assoc,
        List.singleton_append]
  | case2 index read beyond =>
      rw [List.drop_eq_nil_of_le (by simpa using beyond), List.append_nil]

theorem toList_eq_data (bytes : ByteArray) : bytes.toList = bytes.data.toList :=
  toList_loop bytes 0 []

theorem length_toUTF8 (text : String) : text.toUTF8.toList.length = text.utf8ByteSize := by
  rw [toList_eq_data, Array.length_toList]
  rfl

theorem fromUTF8?_toUTF8 (text : String) :
    String.fromUTF8? ⟨text.toUTF8.toList.toArray⟩ = some text := by
  rw [toList_eq_data, Array.toArray_toList]
  exact dif_pos text.isValidUTF8

/-! ## Sizes -/

def TextFits (text : String) : Prop := text.utf8ByteSize < 2 ^ 64

instance (text : String) : Decidable (TextFits text) :=
  inferInstanceAs (Decidable (text.utf8ByteSize < 2 ^ 64))

theorem total_eq_length {α β : Type} {items : List α} {size : α → Nat} {write : α → List β}
    (same : ∀ item ∈ items, size item = (write item).length) :
    total (items.map size) = (items.flatMap write).length := by
  induction items with
  | nil => rfl
  | cons item rest ih =>
      obtain ⟨first, others⟩ := List.forall_mem_cons.mp same
      rw [List.map_cons, total, ih others, first, List.flatMap_cons, List.length_append]

class Payload.Exact (α : Type) [Payload α] : Prop where
  size_eq_length : ∀ value : α, Payload.size value = (Payload.encode value).length

instance : Payload.Exact UInt64 := ⟨fun value => Varint.size_eq_length value.toNat⟩

instance : Payload.Exact Int64 := ⟨fun value => Varint.size_eq_length value.toUInt64.toNat⟩

instance : Payload.Exact String := ⟨fun value => (length_toUTF8 value).symm⟩

instance {α : Type} [Payload α] [Payload.Exact α] : Payload.Exact (List α) :=
  ⟨fun _ => total_eq_length fun value _ => Payload.Exact.size_eq_length value⟩

namespace NumberedField

variable {α : Type} [DecidableEq α] [Payload α]

theorem encode_of_isOmitted {field : NumberedField α} (omitted : field.isOmitted = true) :
    field.encode = [] := if_pos omitted

theorem encode_of_written {field : NumberedField α} (written : field.isOmitted = false) :
    field.encode = field.header ++ Payload.encode field.value := by
  rw [encode, if_neg (by simp [written])]

theorem size_eq_length [Payload.Exact α] (field : NumberedField α) :
    field.size = field.encode.length := by
  cases omitted : field.isOmitted with
  | true => rw [size, if_pos omitted, encode_of_isOmitted omitted, List.length_nil]
  | false =>
      rw [size, if_neg (by simp [omitted]), encode_of_written omitted, header, List.length_append,
        List.length_append, Payload.Exact.size_eq_length, Varint.size_eq_length]
      split
      · rw [Varint.size_eq_length]
      · rfl

end NumberedField

/-! ## Reading one field -/

abbrev IsFieldNumber (number : Nat) : Prop :=
  0 < number ∧ number < 2 ^ 29

theorem IsFieldNumber.key_lt {number : Nat} (usable : IsFieldNumber number) (kind : WireKind) :
    key number kind < UInt32.size := by
  have := usable.2
  have := kind.code_lt
  unfold key
  simp only [UInt32.size]
  omega

theorem readKey?_encode {number : Nat} (usable : IsFieldNumber number) (kind : WireKind)
    (rest : List UInt8) :
    readKey? (Varint.encode (key number kind) ++ rest) = some (number, kind, rest) := by
  have small := usable.key_lt kind
  have positive := usable.1
  have code := kind.code_lt
  have low : key number kind % 8 = kind.code := by unfold key; omega
  have high : key number kind / 8 = number := by unfold key; omega
  have large : 8 ≤ key number kind := by unfold key; omega
  rw [readKey?, Varint.decode?_encode (Nat.lt_trans small (by decide))]
  dsimp only
  rw [if_pos ⟨small, large⟩, low, high, WireKind.ofCode?_code, Option.map_some]

theorem takeExact?_append (taken rest : List UInt8) :
    takeExact? taken.length (taken ++ rest) = some (taken, rest) := by
  simp [takeExact?]

theorem readField?_varint {number value : Nat} (usable : IsFieldNumber number)
    (bounded : value < 2 ^ 64) (levels : Nat) (rest : List UInt8) :
    readField? levels (Varint.encode (key number .varint) ++ Varint.encode value ++ rest) =
      some ((number, .varint value), rest) := by
  rw [List.append_assoc, readField?, readKey?_encode usable]
  dsimp only
  rw [Varint.decode?_encode bounded, Option.map_some]

theorem readField?_delimited {number : Nat} (usable : IsFieldNumber number) {payload : List UInt8}
    (bounded : payload.length < 2 ^ 64) (levels : Nat) (rest : List UInt8) :
    readField? levels
        (Varint.encode (key number .delimited) ++ Varint.encode payload.length ++ payload ++ rest) =
      some ((number, .delimited payload), rest) := by
  rw [List.append_assoc, List.append_assoc, readField?, readKey?_encode usable]
  dsimp only
  rw [takeDelimited?, Varint.decode?_encode bounded]
  dsimp only
  rw [takeExact?_append, Option.map_some]

end HeapSampler.Wire
