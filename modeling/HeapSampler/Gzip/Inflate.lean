import HeapSampler.Gzip.Alphabet
import HeapSampler.Gzip.Huffman

/-!
# Decompression

Compressed data is a run of blocks, the last of which is marked.  A block is stored as it is, or
coded in symbols: literals, copies of what was output before, and an end mark.  The codes are fixed
ones or stand in front of the block, themselves coded.
-/

namespace HeapSampler.Gzip

/--
Appends `count` bytes, each equal to the byte `distance` places before it.  The output behaves as
if zeros stood in front of it, so a copy may reach back beyond its start.
-/
def copyBack (distance : Nat) : Nat → Array UInt8 → Array UInt8
  | 0, output => output
  | count + 1, output =>
      let byte :=
        if distance ≤ output.size then output[output.size - distance]?.getD 0 else 0
      copyBack distance count (output.push byte)

def extended? (table : Array (Nat × Nat)) (symbol : Nat) (cursor : Cursor) :
    Option (Nat × Cursor) :=
  match table[symbol]? with
  | none => none
  | some (base, extraBits) =>
      (cursor.number? extraBits).map fun (extra, cursor) => (base + extra, cursor)

/-- Decodes the symbols of a block up to its end mark, at most `steps` of them. -/
def inflateSymbols (literals distances : Huffman) : Nat → Cursor → Array UInt8 →
    Option (Array UInt8 × Cursor)
  | 0, _, _ => none
  | steps + 1, cursor, output => do
      let (symbol, cursor) ← literals.symbol? cursor
      if symbol < 256 then
        inflateSymbols literals distances steps cursor (output.push (UInt8.ofNat symbol))
      else if symbol = 256 then
        return (output, cursor)
      else
        let (count, cursor) ← extended? copyLengths (symbol - 257) cursor
        let (symbol, cursor) ← distances.symbol? cursor
        let (distance, cursor) ← extended? copyDistances symbol cursor
        inflateSymbols literals distances steps cursor (copyBack distance count output)

def inflateStored (cursor : Cursor) (output : Array UInt8) : Option (Array UInt8 × Cursor) := do
  let (length, cursor) ← cursor.bytes? 2
  let (complement, cursor) ← cursor.bytes? 2
  if natOfLittleEndian length + natOfLittleEndian complement = 65535 then
    let (content, cursor) ← cursor.bytes? (natOfLittleEndian length)
    return (output ++ content, cursor)
  else none

def shortNumbers? : Nat → Cursor → Option (List Nat × Cursor)
  | 0, cursor => some ([], cursor)
  | count + 1, cursor => do
      let (number, cursor) ← cursor.number? 3
      let (numbers, cursor) ← shortNumbers? count cursor
      return (number :: numbers, cursor)

/-- Puts the lengths of the code for code lengths, sent in an order of their own, in place. -/
def inPlace (sent : List Nat) : List Nat :=
  (List.range 19).map fun symbol =>
    (((lengthCodeOrder.zip sent).find? (·.1 = symbol)).map Prod.snd).getD 0

/--
Reads code lengths until there are `total` of them.  Three of the symbols repeat a length: the last
one 3 to 6 times, or zero 3 to 10 times or 11 to 138 times.
-/
def codeLengths? (code : Huffman) (total : Nat) : Nat → Array Nat → Cursor →
    Option (List Nat × Cursor)
  | 0, _, _ => none
  | steps + 1, lengths, cursor =>
      if lengths.size = total then some (lengths.toList, cursor)
      else if total < lengths.size then none
      else do
        let (symbol, cursor) ← code.symbol? cursor
        if symbol < 16 then codeLengths? code total steps (lengths.push symbol) cursor
        else
          let (repeated, bits, least) ← match symbol with
            | 16 => (lengths.back?).map (·, 2, 3)
            | 17 => some (0, 3, 3)
            | _ => some (0, 7, 11)
          let (extra, cursor) ← cursor.number? bits
          codeLengths? code total steps
            (lengths ++ List.replicate (least + extra) repeated) cursor

def readCodes? (cursor : Cursor) : Option ((Huffman × Huffman) × Cursor) := do
  let (literalCount, cursor) ← cursor.number? 5
  let (distanceCount, cursor) ← cursor.number? 5
  let (lengthCount, cursor) ← cursor.number? 4
  let literalCount := literalCount + 257
  let distanceCount := distanceCount + 1
  if 286 < literalCount ∨ 30 < distanceCount then none
  else
    let (sent, cursor) ← shortNumbers? (lengthCount + 4) cursor
    let lengthCode := Huffman.ofLengths (inPlace sent)
    if !lengthCode.isComplete then none
    else
      let total := literalCount + distanceCount
      let (lengths, cursor) ← codeLengths? lengthCode total (total + 1) #[] cursor
      let literals := Huffman.ofLengths (lengths.take literalCount)
      let distances := Huffman.ofLengths (lengths.drop literalCount)
      if literals.isUsable && distances.isUsable then return ((literals, distances), cursor)
      else none

def inflateBlock (steps : Nat) (cursor : Cursor) (output : Array UInt8) :
    Option (Array UInt8 × Cursor) := do
  let (kind, cursor) ← cursor.number? 2
  match kind with
  | 0 => inflateStored cursor output
  | 1 =>
      inflateSymbols (.ofLengths fixedLiteralLengths) (.ofLengths fixedDistanceLengths)
        steps cursor output
  | 2 => do
      let ((literals, distances), cursor) ← readCodes? cursor
      inflateSymbols literals distances steps cursor output
  | _ => none

/-- Decompresses the blocks up to the last one; `steps` bounds blocks and symbols of a block. -/
def inflateBlocks : Nat → Cursor → Array UInt8 → Option (Array UInt8 × Cursor)
  | 0, _, _ => none
  | steps + 1, cursor, output => do
      let (isLast, cursor) ← cursor.bit?
      let (output, cursor) ← inflateBlock (steps + 1) cursor output
      if isLast then return (output, cursor) else inflateBlocks steps cursor output

/-- Decompresses data and returns what follows it; no block or symbol is shorter than one bit. -/
def inflate? (input : List UInt8) : Option (List UInt8 × List UInt8) :=
  (inflateBlocks (8 * input.length) (.ofBytes input) #[]).map fun (output, cursor) =>
    (output.toList, cursor.bytes)

end HeapSampler.Gzip
