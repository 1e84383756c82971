import HeapSampler.Gzip.Member
import HeapSampler.Proofs.Gzip.Token

/-!
# Members there and back

Each way of writing a block is read as the data its pieces stand for.  So compressed data is read
back, and a gzip member is unpacked to what was packed.
-/

namespace HeapSampler.Gzip

/-! ## Blocks -/

namespace Block

variable {data : Array UInt8} {start stop steps before : Nat} {block : Block}

theorem inflateBlock_fixedBits (cuts : Cuts data start block.tokens.toList stop)
    (enough : block.fixedBits.length ≤ steps) (rest : List Bool) :
    inflateBlock steps (.ofBits (block.fixedBits ++ rest)) (data.extract 0 start) =
      some (data.extract 0 stop, .ofBits rest) := by
  have names := names_fixed cuts
  have few := length_le_length_bits names.literals_fit names.hasWords
  rw [fixedBits, tokenBits, List.length_append, List.length_append, length_bitsOfNat] at enough
  rw [inflateBlock, fixedBits, tokenBits, List.append_assoc, List.append_assoc,
    Cursor.number?_ofBits (by decide)]
  exact inflateSymbols_bits cuts names (by omega) rest

theorem inflateBlock_ownBits (cuts : Cuts data start block.tokens.toList stop)
    (enough : block.ownBits.length ≤ steps) (rest : List Bool) :
    inflateBlock steps (.ofBits (block.ownBits ++ rest)) (data.extract 0 start) =
      some (data.extract 0 stop, .ofBits rest) := by
  have names := names_own cuts
  have few := length_le_length_bits names.literals_fit names.hasWords
  obtain ⟨length, present⟩ := names.ended
  simp only [ownBits, tokenBits, List.length_append, length_bitsOfNat] at enough
  simp only [inflateBlock, ownBits, tokenBits, List.append_assoc]
  rw [Cursor.number?_ofBits (by decide)]
  simp only [Option.bind_eq_bind, Option.bind_some]
  rw [readCodes?_lengthBits (suits_own (by decide) _) (length_occurrences _ _)
    (suits_own (by decide) _) (length_occurrences _ _)
    ⟨_, List.mem_of_getElem? present, Nat.succ_pos length⟩]
  exact inflateSymbols_bits cuts names (by omega) rest

theorem inflateStored_eq {content : List UInt8} (few : content.length < 65536)
    (pending : List Bool) (bytes : List UInt8) (output : Array UInt8) :
    inflateStored ⟨pending, littleEndian 2 content.length ++
        (littleEndian 2 (65535 - content.length) ++ (content ++ bytes))⟩ output =
      some (output ++ content, .ofBytes bytes) := by
  have length_read : natOfLittleEndian (littleEndian 2 content.length) = content.length :=
    natOfLittleEndian_littleEndian few
  have complement_read : natOfLittleEndian (littleEndian 2 (65535 - content.length)) =
      65535 - content.length :=
    natOfLittleEndian_littleEndian (by omega)
  simp only [inflateStored, Option.bind_eq_bind, Option.bind_some, Cursor.ofBytes,
    Cursor.bytes?_of_length (length_littleEndian 2 _), length_read, complement_read,
    Cursor.bytes?_of_length rfl]
  rw [if_pos (by omega)]
  rfl

theorem length_storedBits (before : Nat) (block : Block) :
    (block.storedBits before).length =
      34 + (8 - (before + 2) % 8) % 8 + 8 * block.content.size := by
  simp only [storedBits, List.length_append, List.length_replicate, length_bitsOfNat,
    length_flatMap_bitsOf, Array.length_toList]
  omega

/-- The padding brings a stored block's bytes to a boundary, if the last byte ends on one. -/
theorem inflateBlock_storedBits (content_eq : block.content = data.extract start stop)
    (ordered : start ≤ stop) (few : block.content.size ≤ windowSize) {rest : List Bool}
    (aligned : (before + (block.storedBits before).length + rest.length) % 8 = 0) :
    inflateBlock steps (.ofBits (block.storedBits before ++ rest)) (data.extract 0 start) =
      some (data.extract 0 stop, .ofBits rest) := by
  rw [length_storedBits] at aligned
  obtain ⟨bytes, rfl⟩ : ∃ bytes : List UInt8, rest = bytes.flatMap bitsOf := by
    obtain ⟨left, bytes, short, rfl⟩ := exists_bytes rest
    rw [List.length_append, length_flatMap_bitsOf] at aligned
    cases List.eq_nil_of_length_eq_zero (show left.length = 0 by omega)
    exact ⟨bytes, rfl⟩
  rw [windowSize] at few
  have read := inflateStored_eq
    (show block.content.toList.length < 65536 by rw [Array.length_toList]; omega)
    (List.replicate ((8 - (before + 2) % 8) % 8) false) bytes (data.extract 0 start)
  rw [← Cursor.ofBits_append (by rw [List.length_replicate]; omega)] at read
  simp only [List.flatMap_append, flatMap_bitsOf_littleEndian, Array.length_toList,
    Nat.reduceMul] at read
  rw [inflateBlock]
  simp only [storedBits, List.append_assoc]
  rw [Cursor.number?_ofBits (by decide)]
  simp only [Option.bind_eq_bind, Option.bind_some]
  rw [read, Cursor.ofBits_flatMap, appendList_toList, content_eq, Array.extract_append_extract,
    Nat.min_eq_left (Nat.zero_le _), Nat.max_eq_right ordered]

theorem inflateBlock_codedBits (cuts : Cuts data start block.tokens.toList stop)
    (enough : block.codedBits.length ≤ steps) (rest : List Bool) :
    inflateBlock steps (.ofBits (block.codedBits ++ rest)) (data.extract 0 start) =
      some (data.extract 0 stop, .ofBits rest) := by
  by_cases few : block.content.size < leastCoded
  · rw [codedBits, if_pos few] at enough ⊢
    exact inflateBlock_fixedBits cuts enough rest
  · rw [codedBits, if_neg few] at enough ⊢
    exact inflateBlock_ownBits cuts enough rest

theorem bits_eq_or (before : Nat) (block : Block) :
    block.bits before = block.codedBits ∨
      block.bits before = block.storedBits before ∧ block.content.size ≤ windowSize := by
  rw [bits]
  split
  next stored => exact .inr ⟨rfl, stored.2.1⟩
  next => exact .inl rfl

/-- However a block is written, it is read as the data it stands for. -/
theorem inflateBlock_bits (cuts : Cuts data start block.tokens.toList stop)
    (content_eq : block.content = data.extract start stop) {rest : List Bool}
    (aligned : (before + (block.bits before).length + rest.length) % 8 = 0)
    (enough : (block.bits before).length ≤ steps) :
    inflateBlock steps (.ofBits (block.bits before ++ rest)) (data.extract 0 start) =
      some (data.extract 0 stop, .ofBits rest) := by
  rcases bits_eq_or before block with coded | ⟨stored, few⟩
  · rw [coded] at enough ⊢
    exact inflateBlock_codedBits cuts enough rest
  · rw [stored] at aligned ⊢
    exact inflateBlock_storedBits content_eq cuts.le few aligned

theorem toList_append (isLast : Bool) (written : Array Bool) (block : Block) :
    (block.append isLast written).toList =
      written.toList ++ isLast :: block.bits (written.size + 1) := by
  rw [append, Array.toList_appendList, Array.toList_push, List.append_assoc, Array.size_push]
  rfl

theorem size_append (isLast : Bool) (written : Array Bool) (block : Block) :
    (block.append isLast written).size =
      written.size + 1 + (block.bits (written.size + 1)).length := by
  rw [← Array.length_toList, toList_append, List.length_append, List.length_cons,
    Array.length_toList]
  omega

/-- A bit in front of a block tells whether another one follows. -/
theorem inflateBlocks_cons (cuts : Cuts data start block.tokens.toList stop)
    (content_eq : block.content = data.extract start stop) (isLast : Bool) {rest : List Bool}
    (aligned : (before + (block.bits before).length + rest.length) % 8 = 0)
    (enough : (block.bits before).length ≤ steps) :
    inflateBlocks (steps + 1) (.ofBits (isLast :: (block.bits before ++ rest)))
        (data.extract 0 start) =
      if isLast then some (data.extract 0 stop, .ofBits rest)
      else inflateBlocks steps (.ofBits rest) (data.extract 0 stop) := by
  rw [inflateBlocks, Cursor.bit?_ofBits]
  simp only [Option.bind_eq_bind, Option.bind_some,
    inflateBlock_bits cuts content_eq aligned (Nat.le_succ_of_le enough)]
  rfl

/-- What is written for blocks is read as the data they stand for. -/
theorem exists_allBits {blocks : List Block} (covers : Covers data start blocks stop)
    (some_block : blocks ≠ []) (written : Array Bool) :
    ∃ bits : List Bool, (allBits written blocks).toList = written.toList ++ bits ∧
      ∀ (steps : Nat) (rest : List Bool), (written.size + bits.length + rest.length) % 8 = 0 →
        bits.length ≤ steps →
        inflateBlocks steps (.ofBits (bits ++ rest)) (data.extract 0 start) =
          some (data.extract 0 stop, .ofBits rest) := by
  induction covers generalizing written with
  | nil => exact absurd rfl some_block
  | @cons start middle stop block blocks cuts content_eq later ih =>
      cases blocks with
      | nil =>
          cases later
          refine ⟨_, toList_append true written block, fun steps rest aligned enough => ?_⟩
          rw [List.length_cons] at aligned enough
          cases steps with
          | zero => cases enough
          | succ steps =>
              rw [List.cons_append, inflateBlocks_cons cuts content_eq true (by omega) (by omega)]
              rfl
      | cons next blocks =>
          obtain ⟨bits, written_eq, read⟩ :=
            ih (List.cons_ne_nil _ _) (block.append false written)
          refine ⟨false :: block.bits (written.size + 1) ++ bits, ?_,
            fun steps rest aligned enough => ?_⟩
          · rw [allBits, written_eq, toList_append, List.append_assoc]
            exact List.cons_ne_nil _ _
          · rw [List.length_append, List.length_cons] at aligned enough
            rw [size_append] at read
            cases steps with
            | zero => omega
            | succ steps =>
                rw [List.append_assoc, List.cons_append,
                  inflateBlocks_cons cuts content_eq false
                    (by rw [List.length_append]; omega) (by omega)]
                exact read steps rest (by omega) (by omega)

end Block

/-- Compressed data is read back, and what follows it is left. -/
theorem inflate?_deflate (data rest : List UInt8) :
    inflate? (deflate data ++ rest) = some (data, rest) := by
  obtain ⟨bits, written_eq, read⟩ :=
    Block.exists_allBits (covers_blocksOf data.toArray) (blocksOf_ne_nil _) #[]
  obtain ⟨filling, short, filled⟩ := exists_filled bits
  have input : (deflate data ++ rest).flatMap bitsOf =
      bits ++ (filling ++ rest.flatMap bitsOf) := by
    rw [List.flatMap_append, deflate, written_eq, Array.toList_empty, List.nil_append, ← filled,
      List.append_assoc]
  have length_eq : 8 * (deflate data ++ rest).length =
      bits.length + (filling ++ rest.flatMap bitsOf).length := by
    rw [← List.length_append, ← input, length_flatMap_bitsOf]
  have inflated := read (8 * (deflate data ++ rest).length) (filling ++ rest.flatMap bitsOf)
    (by rw [List.size_toArray, List.length_nil]; omega) (by omega)
  rw [Cursor.ofBits_append short, Array.extract_size, Array.extract_zero] at inflated
  rw [inflate?, ← Cursor.ofBits_flatMap, input, inflated]
  rfl

/-! ## Members -/

theorem length_trailer (data : List UInt8) : (trailer data).length = 8 := by
  simp [trailer]

/-- Any data is unpacked from its member. -/
theorem gunzip?_gzip (data : List UInt8) : gunzip? (gzip data) = some data := by
  have header : skipHeader? (gzip data) = some (deflate data ++ trailer data) := by
    simp [gzip, plainHeader, magic, skipHeader?, whenFlag]
  have last : Wire.takeExact? 8 (trailer data) = some (trailer data, []) := by
    have taken := Wire.takeExact?_append (trailer data) []
    rwa [List.append_nil, length_trailer] at taken
  simp only [gunzip?, header, Option.bind_eq_bind, Option.bind_some, inflate?_deflate, last,
    if_true]
  rfl

end HeapSampler.Gzip
