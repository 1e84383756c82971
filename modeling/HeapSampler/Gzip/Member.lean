import HeapSampler.Gzip.Block
import HeapSampler.Gzip.Inflate

/-!
# Gzip members

A member is a header, compressed data, and a trailer with the checksum and the length of the data.
Reading takes the first member and ignores what follows it.  The checksum is a cyclic redundancy
check with the reflected polynomial `0xEDB88320`, started from all ones and complemented at the end.
-/

namespace HeapSampler.Gzip

namespace Crc32

def polynomial : UInt32 := 0xEDB88320

def shift (remainder : UInt32) : UInt32 :=
  if remainder &&& 1 = 1 then (remainder >>> 1) ^^^ polynomial else remainder >>> 1

def update (remainder : UInt32) (byte : UInt8) : UInt32 :=
  (List.range 8).foldl (fun remainder _ => shift remainder) (remainder ^^^ byte.toUInt32)

def checksum (bytes : List UInt8) : UInt32 :=
  bytes.foldl update 0xFFFFFFFF ^^^ 0xFFFFFFFF

end Crc32

def magic : List UInt8 := [0x1f, 0x8b]

/-- The header that is written: no optional parts, no time, system unknown. -/
def plainHeader : List UInt8 :=
  magic ++ [8, 0, 0, 0, 0, 0, 0, 255]

def trailer (data : List UInt8) : List UInt8 :=
  littleEndian 4 (Crc32.checksum data).toNat ++ littleEndian 4 data.length

def gzip (data : List UInt8) : List UInt8 :=
  plainHeader ++ deflate data ++ trailer data

def skipText? : List UInt8 → Option (List UInt8)
  | [] => none
  | byte :: rest => if byte = 0 then some rest else skipText? rest

def whenFlag (flags : UInt8) (bit : Nat) (skip : List UInt8 → Option (List UInt8))
    (input : List UInt8) : Option (List UInt8) :=
  if flags.toNat.testBit bit then skip input else some input

def skipExtra? (input : List UInt8) : Option (List UInt8) := do
  let (length, rest) ← Wire.takeExact? 2 input
  let (_, rest) ← Wire.takeExact? (natOfLittleEndian length) rest
  return rest

/-- Skips the header's own checksum, two bytes, if it fits the header before it. -/
def skipHeaderCheck? (member rest : List UInt8) : Option (List UInt8) := do
  let (check, after) ← Wire.takeExact? 2 rest
  let header := member.take (member.length - rest.length)
  if natOfLittleEndian check = (Crc32.checksum header).toNat % 65536 then return after else none

/-- Skips a header: two magic bytes, the one known method, flags, six bytes, optional parts. -/
def skipHeader? (member : List UInt8) : Option (List UInt8) :=
  match member with
  | 0x1f :: 0x8b :: 8 :: flags :: _ :: _ :: _ :: _ :: _ :: _ :: rest => do
      if 32 ≤ flags then none
      else
        let rest ← whenFlag flags 2 skipExtra? rest
        let rest ← whenFlag flags 3 skipText? rest
        let rest ← whenFlag flags 4 skipText? rest
        whenFlag flags 1 (skipHeaderCheck? member) rest
  | _ => none

/-- The data of the first member, if it is whole and its trailer fits. -/
def gunzip? (member : List UInt8) : Option (List UInt8) := do
  let rest ← skipHeader? member
  let (data, rest) ← inflate? rest
  let (found, _) ← Wire.takeExact? 8 rest
  if found = trailer data then return data else none

end HeapSampler.Gzip
