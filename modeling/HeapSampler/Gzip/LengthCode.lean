import HeapSampler.Gzip.WordLengths
import HeapSampler.Gzip.Alphabet

/-!
# Code lengths as they are sent

The code lengths of a block's two codes stand in front of it as one list, in which runs are
shortened: a length may be repeated 3 to 6 times, and zero 3 to 138 times.  The symbols of this
list have a code of their own.
-/

namespace HeapSampler.Gzip

inductive LengthPart where
  | single (length : Nat)
  /-- The length in front, so many times. -/
  | again (count : Nat)
  | zeros (count : Nat)
  deriving DecidableEq, Repr

namespace LengthPart

def symbol : LengthPart → Nat
  | single length => length
  | again _ => 16
  | zeros count => if count ≤ 10 then 17 else 18

/-- The bits behind the symbol, which tell the count. -/
def extraBits : LengthPart → List Bool
  | single _ => []
  | again count => bitsOfNat 2 (count - 3)
  | zeros count => if count ≤ 10 then bitsOfNat 3 (count - 3) else bitsOfNat 7 (count - 11)

def bits (words : Array (List Bool)) (part : LengthPart) : List Bool :=
  words[part.symbol]?.getD [] ++ part.extraBits

/-- A length so many times, which are `repeated` unless they are fewer than three. -/
def ofCount (length : Nat) (repeated : Nat → LengthPart) (count : Nat) : List LengthPart :=
  if count < 3 then List.replicate count (single length) else [repeated count]

def cutCount (most count : Nat) : List Nat :=
  List.replicate (count / most) most ++ [count % most]

def ofRun : List Nat → List LengthPart
  | [] => []
  | 0 :: rest => (cutCount 138 (rest.length + 1)).flatMap (ofCount 0 zeros)
  | length :: rest => single length :: (cutCount 6 rest.length).flatMap (ofCount length again)

def ofLengths (lengths : List Nat) : List LengthPart :=
  (lengths.splitBy (· == ·)).flatMap ofRun

end LengthPart

/-- Drops zeros at the end, but keeps at least `least` numbers. -/
def withoutLastZeros (least : Nat) (numbers : List Nat) : List Nat :=
  numbers.take (max least (numbers.reverse.dropWhile (· = 0)).length)

def occurrences (count : Nat) (symbols : List Nat) : List Nat :=
  (symbols.foldl (fun counts symbol => counts.modify symbol (· + 1))
    (Array.replicate count 0)).toList

/-- The lengths of the words for the parts' symbols, in the order in which they are sent. -/
def inSendingOrder (own : List Nat) : List Nat :=
  withoutLastZeros 4 (lengthCodeOrder.map fun symbol => own[symbol]?.getD 0)

def bitsOfLengths (literalLengths distanceLengths : List Nat) : List Bool :=
  let parts := LengthPart.ofLengths (literalLengths ++ distanceLengths)
  let own := wordLengths 7 (occurrences 19 (parts.map LengthPart.symbol))
  let sent := inSendingOrder own
  bitsOfNat 5 (literalLengths.length - 257) ++ bitsOfNat 5 (distanceLengths.length - 1) ++
    bitsOfNat 4 (sent.length - 4) ++ sent.flatMap (bitsOfNat 3) ++
    parts.flatMap (LengthPart.bits (Huffman.words own))

/-- The bits in front of a block that give the lengths of its codes. -/
def lengthBits (literalLengths distanceLengths : List Nat) : List Bool :=
  bitsOfLengths (withoutLastZeros 257 literalLengths) (withoutLastZeros 1 distanceLengths)

end HeapSampler.Gzip
