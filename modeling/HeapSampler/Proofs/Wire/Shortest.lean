import Mathlib
import HeapSampler.Proofs.Wire.Varint

/-!
# The shortest form of a number

A word is written by a loop over its bits, into a buffer of ten bytes: it never leaves the buffer,
and what it puts there are the digits of the word.  Of all the forms in which a number can be read
this one is the shortest, no form goes on where another one ends, and a tenth byte holds the one
bit that nine bytes leave over.
-/

namespace HeapSampler.Wire.Varint

/-! ## Digits in a buffer -/

namespace Buffer

theorem put?_of_lt {buffer : Buffer} (inside : buffer.used < maxSize) (byte : UInt8) :
    ∃ next, buffer.put? byte = some next ∧ next.used = buffer.used + 1 ∧
      next.written = buffer.written ++ [byte] := by
  refine ⟨_, dif_pos inside, rfl, ?_⟩
  have place : buffer.used < buffer.bytes.toList.length := by simpa using inside
  simp only [written, Vector.toList_set]
  rw [List.take_succ_eq_append_getElem (by simpa using place), List.getElem_set_self,
    List.take_set_of_le (Nat.le_refl _)]

/-- Setting the high bit of a byte leaves the seven others. -/
theorem or_high (digit : Nat) (bounded : digit < 256) : digit ||| 128 = digit % 128 + 128 := by
  have joined (low : Nat) (small : low < 128) : 128 ||| low = low + 128 := by
    rw [← Nat.two_pow_add_eq_or_of_lt (i := 7) small 1]
    exact Nat.add_comm _ _
  by_cases small : digit < 128
  · rw [Nat.or_comm, joined digit small, Nat.mod_eq_of_lt small]
  · have split : digit = 128 ||| digit % 128 := by
      rw [joined _ (Nat.mod_lt _ (by decide))]
      omega
    calc
      digit ||| 128 = (128 ||| digit % 128) ||| 128 := by rw [← split]
      _ = 128 ||| digit % 128 := by rw [Nat.or_right_comm, Nat.or_self]
      _ = digit % 128 + 128 := joined _ (Nat.mod_lt _ (by decide))

theorem or_high_eq_ofNat (word : UInt64) :
    word.toUInt8 ||| 0x80 = UInt8.ofNat (word.toNat % 128 + 128) := by
  rw [← UInt8.toNat_inj, UInt8.toNat_or, UInt64.toNat_toUInt8, toNat_ofNat (by omega)]
  have low := or_high (word.toNat % 256) (Nat.mod_lt _ (by decide))
  rwa [Nat.mod_mod_of_dvd _ (by decide)] at low

/-- With enough places left, the loop puts the digits of the word into the buffer. -/
theorem fill?_of_le {buffer : Buffer} {word : UInt64}
    (room : buffer.used + size word.toNat ≤ maxSize) :
    ∃ full, buffer.fill? word = some full ∧
      full.written = buffer.written ++ encode word.toNat := by
  -- The bytes in use, followed by the digits of what is left of the word, stay the same.
  induction buffer, word using fill?.induct with
  | case1 buffer word large ih =>
      have large' := (continued_iff word).mp large
      rw [size_of_le large'] at room
      obtain ⟨next, put, used, grown⟩ :=
        put?_of_lt (show buffer.used < maxSize by omega) (word.toUInt8 ||| 0x80)
      rw [← toNat_shift] at room
      obtain ⟨full, filled, written⟩ := ih next (by rw [used]; omega)
      refine ⟨full, ?_, ?_⟩
      · rw [fill?, if_pos large, put, Option.bind_some, filled]
      · rw [written, grown, encode_of_le large', toNat_shift, or_high_eq_ofNat, List.append_assoc,
          List.singleton_append]
  | case2 buffer word small =>
      have small' : word.toNat < 128 := Nat.not_le.mp ((continued_iff word).not.mp small)
      rw [size_of_lt small'] at room
      obtain ⟨full, put, -, grown⟩ := put?_of_lt room word.toUInt8
      refine ⟨full, ?_, ?_⟩
      · rw [fill?, if_neg small, put]
      · rw [grown, encode_of_lt small']
        rfl

end Buffer

/-- The loop never leaves the buffer, and what it leaves there is the word's digits. -/
theorem fill?_empty (word : UInt64) :
    ∃ full, Buffer.fill? {} word = some full ∧ full.written = encode word.toNat := by
  have room : ({} : Buffer).used + size word.toNat ≤ maxSize := by
    simpa using size_le_maxSize word.toNat_lt
  obtain ⟨full, filled, written⟩ := Buffer.fill?_of_le room
  exact ⟨full, filled, by rw [written]; rfl⟩

/-! ## Other forms -/

/-- The first byte of what is read ends the number or is followed by its higher digits. -/
theorem decodeWithin_cases {left value : Nat} {input rest : List UInt8}
    (read : decodeWithin (left + 1) input = some (value, rest)) :
    ∃ byte tail, input = byte :: tail ∧
      (byte.toNat < 128 ∧ (left = 0 → byte.toNat ≤ 1) ∧ value = byte.toNat ∧ rest = tail ∨
        ∃ high, decodeWithin left tail = some (high, rest) ∧
          value = byte.toNat - 128 + 128 * high) := by
  cases input with
  | nil => cases read
  | cons byte tail =>
      refine ⟨byte, tail, rfl, ?_⟩
      rw [decodeWithin] at read
      split at read
      · rename_i ends
        split at read
        · cases read
        · rename_i fits
          cases read
          refine .inl ⟨UInt8.lt_iff_toNat_lt.mp ends, fun last => ?_, rfl, rfl⟩
          exact UInt8.le_iff_toNat_le.mp (UInt8.not_lt.mp fun above => fits ⟨last, above⟩)
      · obtain ⟨⟨high, rest'⟩, inner, same⟩ := Option.map_eq_some_iff.mp read
        cases same
        exact .inr ⟨high, inner, rfl⟩

/-- However a number is read, it is read from at least as many bytes as it is written with. -/
theorem size_le_of_decodeWithin {left value : Nat} {input rest : List UInt8}
    (read : decodeWithin left input = some (value, rest)) :
    size value + rest.length ≤ input.length := by
  induction left generalizing input value with
  | zero => cases read
  | succ left ih =>
      obtain ⟨byte, tail, rfl, ⟨small, -, rfl, rfl⟩ | ⟨high, inner, rfl⟩⟩ :=
        decodeWithin_cases read
      · rw [size_of_lt small, List.length_cons]
        omega
      · have shorter := ih inner
        rw [List.length_cons]
        -- The higher digits may all be zero, and then one byte would have been enough.
        by_cases small : byte.toNat - 128 + 128 * high < 128
        · rw [size_of_lt small]
          have : 1 ≤ size high := Nat.le_add_left 1 _
          omega
        · have := byte.toNat_lt
          rw [size_of_le (Nat.not_lt.mp small),
            show (byte.toNat - 128 + 128 * high) / 128 = high by omega]
          omega

/-- Of the last byte allowed only one bit is read. -/
theorem lt_of_decodeWithin {left value : Nat} {input rest : List UInt8}
    (read : decodeWithin (left + 1) input = some (value, rest)) : value < 2 * 128 ^ left := by
  induction left generalizing input value with
  | zero =>
      obtain ⟨byte, tail, rfl, ⟨-, last, rfl, rfl⟩ | ⟨high, inner, rfl⟩⟩ :=
        decodeWithin_cases read
      · exact Nat.lt_succ_of_le (last rfl)
      · cases inner
  | succ left ih =>
      have positive : 0 < 128 ^ left := Nat.pow_pos (by decide)
      rw [Nat.pow_succ]
      obtain ⟨byte, tail, rfl, ⟨small, -, rfl, rfl⟩ | ⟨high, inner, rfl⟩⟩ :=
        decodeWithin_cases read
      · omega
      · have := byte.toNat_lt
        have := ih inner
        omega

/-- What is read fits a word. -/
theorem lt_of_decode? {value : Nat} {input rest : List UInt8}
    (read : decode? input = some (value, rest)) : value < 2 ^ 64 :=
  Nat.lt_of_lt_of_eq (lt_of_decodeWithin read) (by decide)

theorem length_le_of_decode? {value : Nat} {input rest : List UInt8}
    (read : decode? input = some (value, rest)) :
    (encode value).length + rest.length ≤ input.length := by
  rw [← size_eq_length]
  exact size_le_of_decodeWithin read

/-! ## Digits by their places -/

/-- The digit behind which nothing is left is the quotient alone. -/
theorem ofNat_of_getElem? {place value : Nat} {byte : UInt8} (bounded : value < 128 ^ (place + 1))
    (present : (encode value)[place]? = some byte) : byte = UInt8.ofNat (value / 128 ^ place) := by
  induction place generalizing value with
  | zero =>
      rw [encode_of_lt (by simpa using bounded)] at present
      simpa using present.symm
  | succ place ih =>
      by_cases small : value < 128
      · rw [encode_of_lt small] at present
        cases present
      · rw [encode_of_le (Nat.not_lt.mp small), List.getElem?_cons_succ] at present
        have higher : value / 128 < 128 ^ (place + 1) := by
          rwa [Nat.div_lt_iff_lt_mul (by decide), ← Nat.pow_succ]
        rw [ih higher present, Nat.div_div_eq_div_mul, Nat.pow_succ, Nat.mul_comm]

/-- A number reaches the places that its digits take. -/
theorem pow_le_of_lt_size {bytes value : Nat} (longer : bytes + 1 < size value) :
    128 ^ (bytes + 1) ≤ value := by
  by_contra below
  exact absurd (size_le (Nat.not_le.mp below)) (Nat.not_le.mpr longer)

theorem tenth_of_encode {value : Nat} {byte : UInt8} (bounded : value < 2 ^ 64)
    (present : (encode value)[9]? = some byte) : byte = 1 := by
  have long : 9 < size value := by
    rw [size_eq_length]
    exact (List.getElem?_eq_some_iff.mp present).1
  have low : 128 ^ 9 ≤ value := pow_le_of_lt_size long
  have high : value < 128 ^ 10 := Nat.lt_trans bounded (by decide)
  have digit : value / 128 ^ 9 = 1 := by
    rw [Nat.div_eq_iff (by decide)]
    omega
  rw [ofNat_of_getElem? high present, digit]
  rfl

/-- Ten bytes are taken by the numbers with the highest of the 64 bits. -/
theorem size_eq_maxSize_iff {value : Nat} (bounded : value < 2 ^ 64) :
    size value = maxSize ↔ 2 ^ 63 ≤ value := by
  have most := size_le_maxSize bounded
  constructor
  · intro ten
    have low : 128 ^ (8 + 1) ≤ value := pow_le_of_lt_size (by rw [ten]; decide)
    exact Nat.le_trans (by decide) low
  · intro large
    have nonzero : value ≠ 0 := by omega
    have bits : 63 ≤ value.log2 := (Nat.le_log2 nonzero).mpr large
    unfold maxSize size at most ⊢
    omega

end HeapSampler.Wire.Varint
