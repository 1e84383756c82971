import Mathlib
import HeapSampler.Proofs.Wire.Fields
import HeapSampler.Gzip.Bits

/-!
# Reading the bits that were written

However bits are cut into bytes, a cursor in front of them reads them one after another.  A cursor
that stands in front of known bits is given by them alone, so what is read next can be computed.
-/

namespace HeapSampler.Gzip

/-! ## Numbers -/

theorem natOfBits_lt (bits : List Bool) : natOfBits bits < 2 ^ bits.length := by
  induction bits with
  | nil => exact Nat.one_pos
  | cons bit bits ih =>
      have := bit.toNat_le
      rw [natOfBits, List.length_cons, Nat.pow_succ]
      omega

@[simp]
theorem length_bitsOfNat (count value : Nat) : (bitsOfNat count value).length = count := by
  simp [bitsOfNat]

theorem bitsOfNat_succ (count value : Nat) :
    bitsOfNat (count + 1) value = value.testBit 0 :: bitsOfNat count (value / 2) := by
  simp [bitsOfNat, List.range_succ_eq_map, Function.comp_def, Nat.testBit_succ]

theorem natOfBits_bitsOfNat {count value : Nat} (bounded : value < 2 ^ count) :
    natOfBits (bitsOfNat count value) = value := by
  induction count generalizing value with
  | zero => exact (Nat.lt_one_iff.mp bounded).symm
  | succ count ih =>
      have low : (value.testBit 0).toNat = value % 2 := by
        rw [Nat.testBit_zero]
        rcases Nat.mod_two_eq_zero_or_one value with even | odd
        · simp [even]
        · simp [odd]
      rw [bitsOfNat_succ, natOfBits, ih (by rw [Nat.pow_succ] at bounded; omega), low,
        Nat.mod_add_div]

theorem bitsOfNat_natOfBits (bits : List Bool) :
    bitsOfNat bits.length (natOfBits bits) = bits := by
  induction bits with
  | nil => rfl
  | cons bit bits ih =>
      rw [List.length_cons, natOfBits, bitsOfNat_succ]
      cases bit with
      | false => simp [ih]
      | true => simp [ih, Nat.add_mul_div_left]

theorem natOfBits_append_false (bits : List Bool) (count : Nat) :
    natOfBits (bits ++ List.replicate count false) = natOfBits bits := by
  induction bits with
  | nil =>
      induction count with
      | zero => rfl
      | succ count ih => simpa [List.replicate_succ, natOfBits] using ih
  | cons bit bits ih => rw [List.cons_append, natOfBits, natOfBits, ih]

theorem bitsOfNat_add (low high value : Nat) :
    bitsOfNat (low + high) value = bitsOfNat low value ++ bitsOfNat high (value / 2 ^ low) := by
  simp [bitsOfNat, List.range_add, Function.comp_def, Nat.testBit_div_two_pow, Nat.add_comm]

theorem bitsOfNat_mod (count value : Nat) :
    bitsOfNat count (value % 2 ^ count) = bitsOfNat count value := by
  apply List.map_congr_left
  intro place inside
  rw [Nat.testBit_mod_two_pow, decide_eq_true (List.mem_range.mp inside), Bool.true_and]

/-! ## Bytes -/

@[simp]
theorem length_bitsOf (byte : UInt8) : (bitsOf byte).length = 8 :=
  length_bitsOfNat 8 byte.toNat

@[simp]
theorem length_flatMap_bitsOf (bytes : List UInt8) :
    (bytes.flatMap bitsOf).length = 8 * bytes.length := by
  induction bytes with
  | nil => rfl
  | cons byte bytes ih =>
      rw [List.flatMap_cons, List.length_append, length_bitsOf, ih, List.length_cons]
      omega

theorem natOfBits_bitsOf (byte : UInt8) : natOfBits (bitsOf byte) = byte.toNat :=
  natOfBits_bitsOfNat byte.toNat_lt

theorem bitsOf_eq (byte : UInt8) :
    bitsOf byte = byte.toNat.testBit 0 :: bitsOfNat 7 (byte.toNat / 2) :=
  bitsOfNat_succ 7 byte.toNat

theorem bitsOf_ofNat (value : Nat) : bitsOf (UInt8.ofNat value) = bitsOfNat 8 value := by
  rw [bitsOf, UInt8.toNat_ofNat', bitsOfNat_mod]

theorem exists_byte (bits : List Bool) (eight : bits.length = 8) :
    ∃ byte, bitsOf byte = bits := by
  have small := natOfBits_lt bits
  rw [eight] at small
  refine ⟨UInt8.ofNat (natOfBits bits), ?_⟩
  rw [bitsOf, UInt8.toNat_ofNat_of_lt' small, ← eight, bitsOfNat_natOfBits]

/-- Bits end with whole bytes, in front of which a part of one byte is left. -/
theorem exists_bytes (bits : List Bool) :
    ∃ (left : List Bool) (bytes : List UInt8), left.length < 8 ∧
      bits = left ++ bytes.flatMap bitsOf := by
  induction bits with
  | nil => exact ⟨[], [], by decide, rfl⟩
  | cons bit bits ih =>
      obtain ⟨left, bytes, short, rfl⟩ := ih
      by_cases full : left.length = 7
      · obtain ⟨byte, byte_eq⟩ := exists_byte (bit :: left) (by simp [full])
        exact ⟨[], byte :: bytes, by decide, by simp [byte_eq]⟩
      · exact ⟨bit :: left, bytes, by rw [List.length_cons]; omega, rfl⟩

theorem packBits_append_of_length {bits : List Bool} (eight : bits.length = 8)
    (rest : List Bool) :
    packBits (bits ++ rest) = UInt8.ofNat (natOfBits bits) :: packBits rest := by
  match bits, eight with
  | [_, _, _, _, _, _, _, _], _ => rfl

theorem packBits_flatMap_append (bytes : List UInt8) (rest : List Bool) :
    packBits (bytes.flatMap bitsOf ++ rest) = bytes ++ packBits rest := by
  induction bytes with
  | nil => rfl
  | cons byte bytes ih =>
      rw [List.flatMap_cons, List.append_assoc, packBits_append_of_length (length_bitsOf byte),
        natOfBits_bitsOf, UInt8.ofNat_toNat, ih, List.cons_append]

@[simp]
theorem packBits_flatMap (bytes : List UInt8) : packBits (bytes.flatMap bitsOf) = bytes := by
  have packed := packBits_flatMap_append bytes []
  rw [List.append_nil] at packed
  exact packed.trans (List.append_nil bytes)

/-- A byte that is left over is filled up with zeros. -/
theorem exists_filled (bits : List Bool) :
    ∃ filling : List Bool, filling.length < 8 ∧
      bits ++ filling = (packBits bits).flatMap bitsOf := by
  fun_induction packBits bits with
  | case1 b0 b1 b2 b3 b4 b5 b6 b7 rest ih =>
      obtain ⟨filling, short, filled⟩ := ih
      obtain ⟨byte, byte_eq⟩ := exists_byte [b0, b1, b2, b3, b4, b5, b6, b7] rfl
      refine ⟨filling, short, ?_⟩
      rw [List.flatMap_cons, ← filled, ← byte_eq, natOfBits_bitsOf, UInt8.ofNat_toNat, byte_eq]
      rfl
  | case2 => exact ⟨[], by decide, rfl⟩
  | case3 rest several some_left =>
      have short : rest.length < 8 := by
        by_contra long
        obtain ⟨byte, byte_eq⟩ := exists_byte (rest.take 8) (by
          rw [List.length_take]
          omega)
        have cut : rest = bitsOf byte ++ rest.drop 8 := by
          rw [byte_eq, List.take_append_drop]
        exact several _ _ _ _ _ _ _ _ _ cut
      have filled : (rest ++ List.replicate (8 - rest.length) false).length = 8 := by
        rw [List.length_append, List.length_replicate]
        omega
      obtain ⟨byte, byte_eq⟩ := exists_byte _ filled
      refine ⟨List.replicate (8 - rest.length) false, ?_, ?_⟩
      · rw [List.length_replicate]
        have := List.length_pos_iff.mpr some_left
        omega
      · rw [← byte_eq, ← natOfBits_append_false rest (8 - rest.length), ← byte_eq, natOfBits_bitsOf,
          UInt8.ofNat_toNat, List.flatMap_singleton]

/-- Little-endian bytes have the bits of a number in order. -/
theorem flatMap_bitsOf_littleEndian (count value : Nat) :
    (littleEndian count value).flatMap bitsOf = bitsOfNat (8 * count) value := by
  induction count generalizing value with
  | zero => rfl
  | succ count ih =>
      rw [littleEndian, List.flatMap_cons, ih, bitsOf_ofNat, Nat.mul_succ, Nat.add_comm,
        bitsOfNat_add]
      rfl

@[simp]
theorem length_littleEndian (count value : Nat) : (littleEndian count value).length = count := by
  induction count generalizing value with
  | zero => rfl
  | succ count ih => rw [littleEndian, List.length_cons, ih]

theorem natOfLittleEndian_littleEndian {count value : Nat} (bounded : value < 256 ^ count) :
    natOfLittleEndian (littleEndian count value) = value := by
  induction count generalizing value with
  | zero => exact (Nat.lt_one_iff.mp bounded).symm
  | succ count ih =>
      have higher : value / 256 < 256 ^ count := by
        rw [Nat.div_lt_iff_lt_mul (by decide)]
        exact bounded
      rw [littleEndian, natOfLittleEndian, ih higher, UInt8.toNat_ofNat', Nat.mod_add_div]

/-! ## Reading -/

namespace Cursor

/-- The place in front of these bits, the last of which is the last one of a byte. -/
def ofBits (bits : List Bool) : Cursor where
  pending := bits.take (bits.length % 8)
  bytes := packBits (bits.drop (bits.length % 8))

theorem ofBits_append {pending : List Bool} (short : pending.length < 8) (bytes : List UInt8) :
    ofBits (pending ++ bytes.flatMap bitsOf) = ⟨pending, bytes⟩ := by
  have left : (pending ++ bytes.flatMap bitsOf).length % 8 = pending.length := by
    rw [List.length_append, length_flatMap_bitsOf]
    omega
  rw [ofBits, left, List.take_left, List.drop_left, packBits_flatMap]

theorem ofBits_flatMap (bytes : List UInt8) : ofBits (bytes.flatMap bitsOf) = ofBytes bytes :=
  ofBits_append (show ([] : List Bool).length < 8 by decide) bytes

@[simp]
theorem bit?_ofBits (bit : Bool) (rest : List Bool) :
    (ofBits (bit :: rest)).bit? = some (bit, ofBits rest) := by
  obtain ⟨pending, bytes, short, cut⟩ := exists_bytes (bit :: rest)
  cases pending with
  | cons first pending =>
      obtain ⟨rfl, rest_eq⟩ := List.cons.inj cut
      rw [cut, ofBits_append short, bit?, rest_eq]
      exact congrArg (fun after => some (bit, after))
        (ofBits_append (Nat.lt_of_succ_lt short) bytes).symm
  | nil =>
      cases bytes with
      | nil => cases cut
      | cons byte bytes =>
          rw [List.nil_append, List.flatMap_cons, bitsOf_eq, List.cons_append] at cut
          obtain ⟨rfl, rfl⟩ := List.cons.inj cut
          rw [ofBits_append (by simp), ← List.cons_append, ← bitsOf_eq, ← List.flatMap_cons,
            ofBits_flatMap, ofBytes, bit?, bitsOf_eq]

theorem number?_ofBits_append (bits rest : List Bool) :
    (ofBits (bits ++ rest)).number? bits.length = some (natOfBits bits, ofBits rest) := by
  induction bits with
  | nil => rfl
  | cons bit bits ih =>
      rw [List.cons_append, List.length_cons, number?, bit?_ofBits, Option.bind_eq_bind,
        Option.bind_some]
      dsimp only
      rw [ih]
      rfl

/-- A number that is written with enough bits is read back. -/
theorem number?_ofBits {count value : Nat} (bounded : value < 2 ^ count) (rest : List Bool) :
    (ofBits (bitsOfNat count value ++ rest)).number? count = some (value, ofBits rest) := by
  have read := number?_ofBits_append (bitsOfNat count value) rest
  rwa [length_bitsOfNat, natOfBits_bitsOfNat bounded] at read

theorem bytes?_of_length {taken : List UInt8} {count : Nat} (length_eq : taken.length = count)
    (pending : List Bool) (rest : List UInt8) :
    bytes? count ⟨pending, taken ++ rest⟩ = some (taken, .ofBytes rest) := by
  subst length_eq
  rw [bytes?, Wire.takeExact?_append]
  rfl

end Cursor

end HeapSampler.Gzip
