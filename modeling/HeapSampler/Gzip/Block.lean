import HeapSampler.Gzip.Cut
import HeapSampler.Gzip.LengthCode

/-!
# Writing blocks

A short block is written in the fixed codes and a longer one in codes made for it.  If that takes
no less room than its bytes, they are stored instead.
-/

namespace HeapSampler.Gzip

namespace Block

/-- The block has fewer bytes than this if its codes are the fixed ones. -/
def leastCoded : Nat := 48

/-- A block is not stored unless it has more bytes than this. -/
def mostUnstored : Nat := 32

def tokenBits (literalLengths distanceLengths : List Nat) (block : Block) : List Bool :=
  let literals := Huffman.words literalLengths
  let distances := Huffman.words distanceLengths
  block.tokens.toList.flatMap (Token.bits literals distances) ++ literals[endMark]?.getD []

def fixedBits (block : Block) : List Bool :=
  bitsOfNat 2 1 ++ block.tokenBits fixedLiteralLengths fixedDistanceLengths

/-- The block in codes of its own, in which each of its symbols has a word. -/
def ownBits (block : Block) : List Bool :=
  let tokens := block.tokens.toList
  let literalLengths :=
    wordLengths 15 (occurrences 286 (endMark :: tokens.map Token.literalSymbol))
  let distanceLengths :=
    wordLengths 15 (occurrences 30 (tokens.filterMap Token.distanceSymbol?))
  bitsOfNat 2 2 ++ lengthBits literalLengths distanceLengths ++
    block.tokenBits literalLengths distanceLengths

def codedBits (block : Block) : List Bool :=
  if block.content.size < leastCoded then block.fixedBits else block.ownBits

/-- The bytes of the block as they are, after `before` bits. -/
def storedBits (before : Nat) (block : Block) : List Bool :=
  let size := block.content.size
  let padding := List.replicate ((8 - (before + 2) % 8) % 8) false
  bitsOfNat 2 0 ++ padding ++ bitsOfNat 16 size ++ bitsOfNat 16 (65535 - size) ++
    block.content.toList.flatMap bitsOf

def bits (before : Nat) (block : Block) : List Bool :=
  let size := block.content.size
  let wholeBytes := (before + block.codedBits.length) / 8 - before / 8
  if mostUnstored < size ∧ size ≤ windowSize ∧ size ≤ wholeBytes + 1 then
    block.storedBits before
  else block.codedBits

/-- Appends a block to what is written before it; a bit in front marks the last one. -/
def append (isLast : Bool) (written : Array Bool) (block : Block) : Array Bool :=
  let written := written.push isLast
  written ++ block.bits written.size

def allBits (written : Array Bool) : List Block → Array Bool
  | [] => written
  | [last] => last.append true written
  | block :: rest => allBits (block.append false written) rest

end Block

def deflate (data : List UInt8) : List UInt8 :=
  packBits (Block.allBits #[] (blocksOf data.toArray)).toList

end HeapSampler.Gzip
