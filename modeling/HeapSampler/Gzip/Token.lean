import HeapSampler.Gzip.Alphabet
import HeapSampler.Gzip.Huffman

/-!
# Pieces of data

Data is written as literals and as copies of what stands before them.
-/

namespace HeapSampler.Gzip

structure Copy where
  length : Nat
  distance : Nat
  deriving DecidableEq, Repr

inductive Token where
  | literal (byte : UInt8)
  | copy (copied : Copy)
  deriving DecidableEq, Repr

namespace Token

def literalSymbol : Token → Nat
  | literal byte => byte.toNat
  | copy copied => endMark + 1 + rangeOf copyLengths copied.length

def distanceSymbol? : Token → Option Nat
  | literal _ => none
  | copy copied => some (rangeOf copyDistances copied.distance)

def bits (literals distances : Array (List Bool)) (token : Token) : List Bool :=
  let lead := literals[token.literalSymbol]?.getD []
  match token with
  | literal _ => lead
  | copy copied =>
      lead ++ selectingBits copyLengths copied.length ++
        distances[rangeOf copyDistances copied.distance]?.getD [] ++
        selectingBits copyDistances copied.distance

end Token

end HeapSampler.Gzip
