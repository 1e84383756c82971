import HeapSampler.Gzip.Bits

/-!
# Canonical Huffman codes

Such a code is given by the length of each symbol's code word.  Code words of one length are
consecutive numbers in the order of their symbols, and shorter words come first, so a word can be
found and decoded by counting.
-/

namespace HeapSampler.Gzip

structure Huffman where
  /-- How many code words there are of length 1, 2, and so on. -/
  counts : List Nat
  /-- The symbols by length of their code word, those of one length in ascending order. -/
  symbols : Array Nat

namespace Huffman

def maxLength : Nat := 15

/-- The symbols whose words have a given length, in ascending order. -/
def withLength (length : Nat) (lengths : List Nat) : List Nat :=
  (lengths.zipIdx.filter fun entry => entry.1 = length).map Prod.snd

/-- The code in which symbol `i` has a word of length `lengths[i]`, or none if that is zero. -/
def ofLengths (lengths : List Nat) : Huffman where
  counts := (List.range maxLength).map fun length => lengths.count (length + 1)
  symbols :=
    ((List.range maxLength).flatMap fun length => withLength (length + 1) lengths).toArray

/-- The words of full length that no code word begins, or `none` if words would collide. -/
def unused : Nat → List Nat → Option Nat
  | free, [] => some free
  | free, count :: counts => if count ≤ 2 * free then unused (2 * free - count) counts else none

/-- Whether every sequence of bits can be decoded. -/
def isComplete (code : Huffman) : Bool :=
  unused 1 code.counts = some 0

/--
Whether the code may stand for literals or distances: it is complete, or has no word at all, or has
a single word of one bit.
-/
def isUsable (code : Huffman) : Bool :=
  code.isComplete || code.symbols.isEmpty ||
    (code.symbols.size == 1 && code.counts.head? == some 1)

/--
Decodes one symbol.  `word` is what was read so far, with room for one more bit; of the code words
of the length to come, `first` is the lowest, and `index` symbols have shorter words.
-/
def symbolFrom (symbols : Array Nat) (counts : List Nat) (word first index : Nat)
    (cursor : Cursor) : Option (Nat × Cursor) :=
  match counts with
  | [] => none
  | count :: counts => do
      let (bit, cursor) ← cursor.bit?
      let word := word + bit.toNat
      if word < first + count then
        (symbols[index + (word - first)]?).map fun symbol => (symbol, cursor)
      else
        symbolFrom symbols counts (2 * word) (2 * (first + count)) (index + count) cursor

def symbol? (code : Huffman) (cursor : Cursor) : Option (Nat × Cursor) :=
  symbolFrom code.symbols code.counts 0 0 0 cursor

/-- The low `count` bits of a number, high bit first, as code words are sent. -/
def word (count value : Nat) : List Bool :=
  (bitsOfNat count value).reverse

/-- The lowest code word of each length, from the lowest of the first of these lengths on. -/
def lowestWords : Nat → List Nat → List Nat
  | _, [] => []
  | lowest, count :: counts => lowest :: lowestWords (2 * (lowest + count)) counts

/-- Gives each symbol the next word of its length; length zero is no word. -/
def wordsFrom : List Nat → List Nat → List (List Bool)
  | [], _ => []
  | 0 :: lengths, next => [] :: wordsFrom lengths next
  | (length + 1) :: lengths, next =>
      word (length + 1) (next[length]?.getD 0) :: wordsFrom lengths (next.modify length (· + 1))

def words (lengths : List Nat) : Array (List Bool) :=
  (wordsFrom lengths (lowestWords 0 (ofLengths lengths).counts)).toArray

end Huffman

end HeapSampler.Gzip
