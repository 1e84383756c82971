/-!
# Base-128 integers

A number is written seven bits at a time, the low bits first; every byte but the last has its
high bit set.  Reading accepts at most ten bytes and at most 64 bits, so what it yields always
fits a machine word, but it does not insist on the shortest form.

A machine writes the bytes of a word into a buffer and tells their number in a word, both by
operations on bits.
-/

namespace HeapSampler.Wire.Varint

def encode (value : Nat) : List UInt8 :=
  if value < 128 then [UInt8.ofNat value]
  else UInt8.ofNat (value % 128 + 128) :: encode (value / 128)

/-- How many bytes `encode` writes, told from the position of the highest set bit alone. -/
def size (value : Nat) : Nat :=
  value.log2 / 7 + 1

def maxSize : Nat := 10

/-! ## In machine words -/

/-- The size of a number: its bits, of which the lowest counts even if it is zero, seven a byte. -/
def announce (value : UInt64) : UInt64 := ((value ||| 1).log2 + 1 + 6) / 7

theorem toNat_shift (word : UInt64) : (word >>> 7).toNat = word.toNat / 128 := by
  rw [UInt64.toNat_shiftRight]
  exact Nat.shiftRight_eq_div_pow word.toNat 7

theorem continued_iff (word : UInt64) : 0x80 ≤ word ↔ 128 ≤ word.toNat :=
  UInt64.le_iff_toNat_le

structure Buffer where
  bytes : Vector UInt8 maxSize := .replicate maxSize 0
  used : Nat := 0

namespace Buffer

def written (buffer : Buffer) : List UInt8 :=
  buffer.bytes.toList.take buffer.used

/-- Puts a byte behind those in use, which fails outside of the buffer. -/
def put? (buffer : Buffer) (byte : UInt8) : Option Buffer :=
  if inside : buffer.used < maxSize then
    some { bytes := buffer.bytes.set buffer.used byte, used := buffer.used + 1 }
  else none

/-- Puts the bits of a word behind the bytes in use, seven a byte and the low ones first, with the
high bit set on every byte but the last. -/
def fill? (buffer : Buffer) (word : UInt64) : Option Buffer :=
  if 0x80 ≤ word then
    (buffer.put? (word.toUInt8 ||| 0x80)).bind fun next => next.fill? (word >>> 7)
  else buffer.put? word.toUInt8
termination_by word.toNat
decreasing_by
  rename_i large
  rw [continued_iff] at large
  rw [toNat_shift]
  omega

end Buffer

/-! ## Reading -/

/-- Reads a number of at most `left` bytes; of the last byte allowed only one bit is left over. -/
def decodeWithin : Nat → List UInt8 → Option (Nat × List UInt8)
  | 0, _ => none
  | _ + 1, [] => none
  | left + 1, byte :: rest =>
      if byte < 128 then
        if left = 0 ∧ 1 < byte then none else some (byte.toNat, rest)
      else
        (decodeWithin left rest).map fun (high, rest) => (byte.toNat - 128 + 128 * high, rest)

def decode? (input : List UInt8) : Option (Nat × List UInt8) :=
  decodeWithin maxSize input

/-- What follows a number is shorter than the input that began with it. -/
theorem length_lt_of_decodeWithin {left value : Nat} {input rest : List UInt8}
    (read : decodeWithin left input = some (value, rest)) : rest.length < input.length := by
  induction left generalizing input value rest with
  | zero => simp [decodeWithin] at read
  | succ left ih =>
      cases input with
      | nil => simp [decodeWithin] at read
      | cons byte tail =>
          simp only [decodeWithin] at read
          split at read
          · split at read
            · simp at read
            · simp only [Option.some.injEq, Prod.mk.injEq] at read
              simp [← read.2]
          · obtain ⟨⟨high, rest'⟩, inner, same⟩ := Option.map_eq_some_iff.mp read
            simp only [Prod.mk.injEq] at same
            have shorter := ih inner
            rw [← same.2, List.length_cons]
            omega

theorem length_lt_of_decode? {value : Nat} {input rest : List UInt8}
    (read : decode? input = some (value, rest)) : rest.length < input.length :=
  length_lt_of_decodeWithin read

end HeapSampler.Wire.Varint
