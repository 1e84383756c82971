import Mathlib
import HeapSampler.Wire.Varint

/-!
# Numbers there and back

What is written for a number below `2 ^ 64` is read as that number, whatever follows it, and the
size that is told beforehand is the number of bytes that are written.
-/

namespace HeapSampler.Wire.Varint

theorem encode_of_lt {value : Nat} (small : value < 128) : encode value = [UInt8.ofNat value] := by
  rw [encode, if_pos small]

theorem encode_of_le {value : Nat} (large : 128 ≤ value) :
    encode value = UInt8.ofNat (value % 128 + 128) :: encode (value / 128) := by
  rw [encode, if_neg (Nat.not_lt.mpr large)]

theorem encode_ne_nil (value : Nat) : encode value ≠ [] := by
  unfold encode
  split
  · exact List.cons_ne_nil _ _
  · exact List.cons_ne_nil _ _

/-! ## Sizes -/

theorem log2_of_le {value : Nat} (large : 128 ≤ value) : value.log2 = (value / 128).log2 + 7 := by
  have nonzero : value / 128 ≠ 0 := by omega
  have low := Nat.log2_self_le nonzero
  have high : value / 128 < 2 ^ ((value / 128).log2 + 1) := Nat.lt_log2_self
  rw [Nat.log2_eq_iff (by omega)]
  constructor
  · rw [Nat.pow_add]
    omega
  · rw [show (value / 128).log2 + 7 + 1 = (value / 128).log2 + 1 + 7 by omega, Nat.pow_add]
    omega

theorem size_of_le {value : Nat} (large : 128 ≤ value) : size value = size (value / 128) + 1 := by
  unfold size
  rw [log2_of_le large]
  omega

theorem size_of_lt {value : Nat} (small : value < 128) : size value = 1 := by
  have below : value.log2 < 7 := by
    by_cases zero : value = 0
    · subst zero
      decide
    · exact (Nat.log2_lt zero).mpr small
  unfold size
  omega

theorem size_eq_length (value : Nat) : size value = (encode value).length := by
  induction value using Nat.strongRecOn with
  | ind value ih =>
      by_cases small : value < 128
      · rw [size_of_lt small, encode_of_lt small]
        rfl
      · have large := Nat.not_lt.mp small
        rw [size_of_le large, encode_of_le large, List.length_cons, ih (value / 128) (by omega)]

/-- Seven bits a byte. -/
theorem size_le {value bytes : Nat} (bounded : value < 128 ^ (bytes + 1)) :
    size value ≤ bytes + 1 := by
  induction bytes generalizing value with
  | zero => exact Nat.le_of_eq (size_of_lt (by simpa using bounded))
  | succ bytes ih =>
      by_cases small : value < 128
      · rw [size_of_lt small]
        exact Nat.succ_le_succ (Nat.zero_le _)
      · rw [size_of_le (Nat.not_lt.mp small)]
        refine Nat.succ_le_succ (ih ?_)
        rw [Nat.div_lt_iff_lt_mul (by decide)]
        exact bounded

theorem size_le_maxSize {value : Nat} (bounded : value < 2 ^ 64) : size value ≤ maxSize :=
  size_le (Nat.lt_of_lt_of_le bounded (by decide))

/-! ## Reading back -/

theorem toNat_ofNat {digit : Nat} (bounded : digit < 256) : (UInt8.ofNat digit).toNat = digit := by
  rw [UInt8.toNat_ofNat']
  exact Nat.mod_eq_of_lt bounded

theorem ofNat_lt_iff {digit : Nat} (bounded : digit < 256) :
    UInt8.ofNat digit < 128 ↔ digit < 128 := by
  rw [UInt8.lt_iff_toNat_lt, toNat_ofNat bounded]
  rfl

/-- Of the last byte allowed one bit is left over for the number. -/
theorem decodeWithin_encode {left value : Nat} (bounded : value < 2 * 128 ^ left)
    (rest : List UInt8) : decodeWithin (left + 1) (encode value ++ rest) = some (value, rest) := by
  induction left generalizing value with
  | zero =>
      have small : value < 2 := by simpa using bounded
      have digit := toNat_ofNat (show value < 256 by omega)
      rw [encode_of_lt (by omega), List.singleton_append, decodeWithin,
        if_pos ((ofNat_lt_iff (by omega)).mpr (by omega)), if_neg, digit]
      rintro ⟨-, above⟩
      have := UInt8.lt_iff_toNat_lt.mp above
      rw [digit] at this
      simp at this
      omega
  | succ left ih =>
      by_cases small : value < 128
      · have digit := toNat_ofNat (show value < 256 by omega)
        rw [encode_of_lt small, List.singleton_append, decodeWithin,
          if_pos ((ofNat_lt_iff (by omega)).mpr small), if_neg, digit]
        rintro ⟨zero, -⟩
        exact Nat.succ_ne_zero left zero
      · have digit := toNat_ofNat (show value % 128 + 128 < 256 by omega)
        have continued : ¬ UInt8.ofNat (value % 128 + 128) < 128 := by
          rw [ofNat_lt_iff (by omega)]
          exact Nat.not_lt.mpr (Nat.le_add_left _ _)
        have higher : value / 128 < 2 * 128 ^ left := by
          rw [Nat.div_lt_iff_lt_mul (by decide), Nat.mul_assoc, ← Nat.pow_succ]
          exact bounded
        rw [encode_of_le (Nat.not_lt.mp small), List.cons_append, decodeWithin, if_neg continued,
          ih higher, Option.map_some, digit]
        dsimp only
        rw [Nat.add_sub_cancel, Nat.mod_add_div]

theorem decode?_encode {value : Nat} (bounded : value < 2 ^ 64) (rest : List UInt8) :
    decode? (encode value ++ rest) = some (value, rest) :=
  decodeWithin_encode (Nat.lt_of_lt_of_eq bounded (by decide)) rest

end HeapSampler.Wire.Varint
