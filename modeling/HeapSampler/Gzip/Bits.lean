import HeapSampler.Wire.Raw

/-!
# Bits in bytes

Compressed data is written and read bit by bit, the low bit of a byte first.  A cursor holds the
bits left of the byte under way and the bytes after it, so that a part which starts on a byte
boundary can be read as bytes.
-/

namespace HeapSampler.Gzip

def natOfBits : List Bool → Nat
  | [] => 0
  | bit :: bits => bit.toNat + 2 * natOfBits bits

def bitsOfNat (count value : Nat) : List Bool :=
  (List.range count).map value.testBit

def bitsOf (byte : UInt8) : List Bool :=
  bitsOfNat 8 byte.toNat

/-- Packs bits into bytes, low bit first; the last byte is filled up with zeros. -/
def packBits : List Bool → List UInt8
  | b0 :: b1 :: b2 :: b3 :: b4 :: b5 :: b6 :: b7 :: rest =>
      UInt8.ofNat (natOfBits [b0, b1, b2, b3, b4, b5, b6, b7]) :: packBits rest
  | [] => []
  | rest => [UInt8.ofNat (natOfBits rest)]

def littleEndian : Nat → Nat → List UInt8
  | 0, _ => []
  | count + 1, value => UInt8.ofNat value :: littleEndian count (value / 256)

def natOfLittleEndian : List UInt8 → Nat
  | [] => 0
  | byte :: bytes => byte.toNat + 256 * natOfLittleEndian bytes

structure Cursor where
  /-- What is left of the byte under way. -/
  pending : List Bool
  bytes : List UInt8

namespace Cursor

def ofBytes (bytes : List UInt8) : Cursor := ⟨[], bytes⟩

def bit? : Cursor → Option (Bool × Cursor)
  | ⟨bit :: pending, bytes⟩ => some (bit, ⟨pending, bytes⟩)
  | ⟨[], byte :: bytes⟩ =>
      match bitsOf byte with
      | bit :: pending => some (bit, ⟨pending, bytes⟩)
      | [] => none
  | ⟨[], []⟩ => none

/-- The next `count` bits as a number, low bit first. -/
def number? : Nat → Cursor → Option (Nat × Cursor)
  | 0, cursor => some (0, cursor)
  | count + 1, cursor => do
      let (bit, cursor) ← cursor.bit?
      let (high, cursor) ← number? count cursor
      return (bit.toNat + 2 * high, cursor)

/-- The next `count` whole bytes; what is left of the byte under way is dropped. -/
def bytes? (count : Nat) (cursor : Cursor) : Option (List UInt8 × Cursor) :=
  (Wire.takeExact? count cursor.bytes).map fun (taken, rest) => (taken, ofBytes rest)

end Cursor

end HeapSampler.Gzip
