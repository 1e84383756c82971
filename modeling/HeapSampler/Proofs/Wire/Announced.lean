import Mathlib
import HeapSampler.Proofs.Wire.Fields

/-!
# Sizes in machine words

A machine tells sizes in 64-bit words, whose sums wrap around.  A word that is told in this way is
the number of bytes that are written as long as that number fits a word, so a length that is written
in front of a payload ends exactly where the payload ends.
-/

namespace HeapSampler.Wire

/-! ## Numbers and keys -/

theorem or_one_eq (value : Nat) : value ||| 1 = 2 * (value / 2) + 1 := by
  have low : 2 * (value / 2) + 1 = 2 * (value / 2) ||| 1 :=
    Nat.two_pow_add_eq_or_of_lt (i := 1) (b := 1) (by decide) (value / 2)
  rcases Nat.mod_two_eq_zero_or_one value with even | odd
  · have value_eq : value = 2 * (value / 2) := by omega
    rw [low, ← value_eq]
  · have value_eq : value = 2 * (value / 2) + 1 := by omega
    calc
      value ||| 1 = (2 * (value / 2) ||| 1) ||| 1 := by rw [← low, ← value_eq]
      _ = 2 * (value / 2) + 1 := by rw [Nat.or_assoc, Nat.or_self, low]

theorem log2_or_one (value : Nat) : (value ||| 1).log2 = value.log2 := by
  rw [or_one_eq]
  by_cases zero : value = 0
  · subst zero
    rfl
  · have low := Nat.log2_self_le zero
    have high : value < 2 ^ (value.log2 + 1) := Nat.lt_log2_self
    rw [Nat.log2_eq_iff (by omega)]
    constructor
    · omega
    · rw [Nat.pow_succ] at high ⊢
      omega

theorem Varint.toNat_announce (value : UInt64) :
    (Varint.announce value).toNat = Varint.size value.toNat := by
  have log_eq : (value ||| 1).log2.toNat = value.toNat.log2 := by
    rw [← log2_or_one value.toNat]
    exact congrArg Nat.log2 (UInt64.toNat_or value 1)
  have log_lt : value.toNat.log2 < 64 := by
    by_cases zero : value.toNat = 0
    · rw [zero]
      decide
    · exact (Nat.log2_lt zero).mpr value.toNat_lt
  simp only [Varint.announce, Varint.size, UInt64.toNat_div, UInt64.toNat_add, log_eq]
  simp only [UInt64.reduceToNat]
  omega

theorem toNat_keyWord {number : Nat} (usable : IsFieldNumber number) (kind : WireKind) :
    (keyWord (UInt32.ofNat number) kind).toNat = key number kind := by
  have small := usable.2
  have code_lt := kind.code_lt
  have number_eq : (UInt32.ofNat number).toNat = number :=
    UInt32.toNat_ofNat_of_lt' (Nat.lt_trans small (by decide))
  have code_eq : (UInt32.ofNat kind.code).toNat = kind.code :=
    UInt32.toNat_ofNat_of_lt' (Nat.lt_trans code_lt (by decide))
  have joined := Nat.two_pow_add_eq_or_of_lt (i := 3) (b := kind.code) code_lt number
  have shifted : (UInt32.ofNat number <<< 3).toNat = 2 ^ 3 * number := by
    rw [UInt32.toNat_shiftLeft, number_eq, Nat.shiftLeft_eq, Nat.mul_comm]
    exact Nat.mod_eq_of_lt (by change 2 ^ 3 * number < 2 ^ 32; omega)
  rw [keyWord, UInt32.toNat_or, shifted, code_eq, ← joined, key, Nat.mul_comm]

/-! ## Sums -/

/-- The word is the number of the bytes if that number fits a word. -/
def Tells (word : UInt64) (bytes : List UInt8) : Prop :=
  bytes.length < 2 ^ 64 → word.toNat = bytes.length

namespace Tells

variable {first second : UInt64} {one two : List UInt8}

theorem zero : Tells 0 [] := fun _ => rfl

theorem append (first_tells : Tells first one) (second_tells : Tells second two) :
    Tells (first + second) (one ++ two) := by
  intro fits
  rw [List.length_append] at fits ⊢
  rw [UInt64.toNat_add, first_tells (by omega), second_tells (by omega)]
  exact Nat.mod_eq_of_lt fits

theorem foldl {α : Type} {tell : α → UInt64} {write : α → List UInt8} {items : List α}
    (each : ∀ item ∈ items, Tells (tell item) (write item)) (start : Tells first one) :
    Tells (items.foldl (fun sum item => sum + tell item) first) (one ++ items.flatMap write) := by
  induction items generalizing first one with
  | nil =>
      rw [List.flatMap_nil, List.append_nil]
      exact start
  | cons item rest ih =>
      obtain ⟨here, others⟩ := List.forall_mem_cons.mp each
      rw [List.foldl_cons, List.flatMap_cons, ← List.append_assoc]
      exact ih others (start.append here)

theorem announceAll {α : Type} {tell : α → UInt64} {write : α → List UInt8} {items : List α}
    (each : ∀ item ∈ items, Tells (tell item) (write item)) :
    Tells (announceAll tell items) (items.flatMap write) :=
  foldl each zero

end Tells

class Announces.Exact (α : Type) [Payload α] [Announces α] : Prop where
  tells : ∀ value : α, Tells (announce value) (Payload.encode value)

theorem Varint.tells_announce (value : UInt64) :
    Tells (Varint.announce value) (Varint.encode value.toNat) := by
  intro _
  rw [Varint.toNat_announce, Varint.size_eq_length]

instance : Announces.Exact UInt64 := ⟨Varint.tells_announce⟩

instance : Announces.Exact Int64 := ⟨fun value => Varint.tells_announce value.toUInt64⟩

instance : Announces.Exact String where
  tells value fits := by
    change (UInt64.ofNat value.utf8ByteSize).toNat = value.toUTF8.toList.length
    rw [length_toUTF8]
    change value.toUTF8.toList.length < 2 ^ 64 at fits
    rw [length_toUTF8] at fits
    exact UInt64.toNat_ofNat_of_lt' fits

instance {α : Type} [Payload α] [Announces α] [Announces.Exact α] : Announces.Exact (List α) where
  tells _ := Tells.announceAll fun value _ => Announces.Exact.tells value

namespace NumberedField

variable {α : Type} [DecidableEq α] [Payload α] [Announces α] [Announces.Exact α]
  {field : NumberedField α}

/--
As soon as the payload's size fits a word, that of the field is told up to its wrapping around.
-/
theorem toNat_announce (usable : IsFieldNumber field.number)
    (fits : (Payload.encode field.value).length < 2 ^ 64) [Payload.Exact α] :
    field.announce.toNat = field.encode.length % 2 ^ 64 := by
  cases omitted : field.isOmitted with
  | true =>
      rw [announce, if_pos omitted, encode_of_isOmitted omitted]
      rfl
  | false =>
      have told := Announces.Exact.tells field.value fits
      have key_eq : (Varint.announce
            (keyWord (UInt32.ofNat field.number) (Payload.kind α)).toUInt64).toNat =
          (Varint.encode (key field.number (Payload.kind α))).length := by
        rw [Varint.toNat_announce, UInt32.toNat_toUInt64, toNat_keyWord usable,
          Varint.size_eq_length]
      rw [announce, if_neg (by simp [omitted]), encode_of_written omitted, header,
        List.length_append, List.length_append, UInt64.toNat_add, UInt64.toNat_add, key_eq, told]
      by_cases delimited : Payload.kind α = .delimited
      · rw [if_pos delimited, if_pos delimited, Varint.toNat_announce, told, Varint.size_eq_length,
          Payload.Exact.size_eq_length]
        omega
      · rw [if_neg delimited, if_neg delimited]
        simp only [UInt64.toNat_zero, List.length_nil]
        omega

theorem tells_announce [Payload.Exact α] (usable : IsFieldNumber field.number) :
    Tells field.announce field.encode := by
  intro fits
  cases omitted : field.isOmitted with
  | true =>
      rw [announce, if_pos omitted, encode_of_isOmitted omitted]
      rfl
  | false =>
      have payload_fits : (Payload.encode field.value).length < 2 ^ 64 := by
        rw [encode_of_written omitted, List.length_append] at fits
        omega
      rw [toNat_announce usable payload_fits]
      exact Nat.mod_eq_of_lt fits

end NumberedField

end HeapSampler.Wire
