import HeapSampler.Proofs.Gzip.Cut
import HeapSampler.Proofs.Gzip.LengthCode

/-!
# Pieces are read back

A piece is written as words of a literal and a distance code and as bits that select a number of a
range.  In codes that have a word for each of its symbols it is read as the data it stands for, and
both the fixed codes and the ones made for a block have such words.
-/

namespace HeapSampler.Gzip

/-! ## Ranges -/

section Ranges

variable {table : Array (Nat × Nat)} {value : Nat} {range : Nat × Nat}

/-- A number has its place where the ranges leave no gap. -/
theorem exists_range {ranges : List (Nat × Nat)} {first : Nat × Nat}
    (gapless : (first :: ranges).IsChain fun range next => next.1 ≤ range.1 + 2 ^ range.2)
    (least : first.1 ≤ value)
    (most : ∀ last ∈ (first :: ranges).getLast?, value < last.1 + 2 ^ last.2) :
    ∃ range, (first :: ranges)[((first :: ranges).takeWhile
        fun (base, _) => base ≤ value).length - 1]? = some range ∧
      range.1 ≤ value ∧ value < range.1 + 2 ^ range.2 := by
  induction ranges generalizing first with
  | nil => exact ⟨first, by simp [least], least, most first rfl⟩
  | cons second ranges ih =>
      obtain ⟨adjacent, later⟩ := List.isChain_cons_cons.mp gapless
      rw [List.takeWhile_cons_of_pos (by simpa using least), List.length_cons,
        Nat.add_sub_cancel]
      rcases Nat.lt_or_ge value second.1 with below | above
      · refine ⟨first, ?_, least, Nat.lt_of_lt_of_le below adjacent⟩
        rw [List.takeWhile_cons_of_neg (by simpa using below)]
        rfl
      · obtain ⟨range, found, bounds⟩ :=
          ih later above fun last member => most last (by simpa using member)
        refine ⟨range, ?_, bounds⟩
        rw [List.takeWhile_cons_of_pos (by simpa using above), List.length_cons] at found ⊢
        simpa using found

theorem exists_copyLength {length : Nat} (bounds : 3 ≤ length ∧ length ≤ 258) :
    ∃ range, copyLengths[rangeOf copyLengths length]? = some range ∧
      range.1 ≤ length ∧ length < range.1 + 2 ^ range.2 := by
  rw [← Array.getElem?_toList]
  exact exists_range (by decide) bounds.1 fun last member => by
    cases member
    exact Nat.lt_succ_of_le bounds.2

theorem exists_copyDistance {distance : Nat} (bounds : 1 ≤ distance ∧ distance ≤ 32768) :
    ∃ range, copyDistances[rangeOf copyDistances distance]? = some range ∧
      range.1 ≤ distance ∧ distance < range.1 + 2 ^ range.2 := by
  rw [← Array.getElem?_toList]
  exact exists_range (by decide) bounds.1 fun last member => by
    cases member
    exact Nat.lt_succ_of_le bounds.2

theorem extended?_selectingBits (found : table[rangeOf table value]? = some range)
    (bounds : range.1 ≤ value ∧ value < range.1 + 2 ^ range.2) (rest : List Bool) :
    extended? table (rangeOf table value) (.ofBits (selectingBits table value ++ rest)) =
      some (value, .ofBits rest) := by
  rw [extended?, selectingBits, found]
  dsimp only
  rw [Cursor.number?_ofBits (by omega), Option.map_some, Nat.add_sub_cancel' bounds.1]

end Ranges

/-! ## Tokens -/

structure Token.HasWords (literalLengths distanceLengths : List Nat) (token : Token) : Prop where
  literal : ∃ length, literalLengths[token.literalSymbol]? = some (length + 1)
  distance : ∀ symbol ∈ token.distanceSymbol?,
    ∃ length, distanceLengths[symbol]? = some (length + 1)

/-- The codes can be read, and they have words for the tokens and for the end mark. -/
structure Names (literalLengths distanceLengths : List Nat) (tokens : List Token) : Prop where
  literals_fit : Huffman.Fits literalLengths
  distances_fit : Huffman.Fits distanceLengths
  ended : ∃ length, literalLengths[endMark]? = some (length + 1)
  hasWords : ∀ token ∈ tokens, token.HasWords literalLengths distanceLengths

section Tokens

variable {literalLengths distanceLengths : List Nat} {token : Token} {tokens : List Token}
  {data : Array UInt8} {start next stop : Nat}

theorem Token.bits_ne_nil (literals_fit : Huffman.Fits literalLengths)
    (hasWords : token.HasWords literalLengths distanceLengths) :
    token.bits (Huffman.words literalLengths) (Huffman.words distanceLengths) ≠ [] := by
  obtain ⟨length, present⟩ := hasWords.literal
  have lead := Huffman.words_ne_nil literals_fit present
  cases token with
  | literal byte => exact lead
  | copy copied => simp [Token.bits, lead]

theorem length_le_length_bits (literals_fit : Huffman.Fits literalLengths)
    (hasWords : ∀ token ∈ tokens, token.HasWords literalLengths distanceLengths) :
    tokens.length ≤ (tokens.flatMap
      (Token.bits (Huffman.words literalLengths) (Huffman.words distanceLengths))).length := by
  induction tokens with
  | nil => exact Nat.zero_le _
  | cons token tokens ih =>
      obtain ⟨here, others⟩ := List.forall_mem_cons.mp hasWords
      have first := List.length_pos_of_ne_nil (Token.bits_ne_nil literals_fit here)
      have later := ih others
      rw [List.flatMap_cons, List.length_append, List.length_cons]
      omega

/-- A token is read as the data it stands for. -/
theorem Token.Advances.inflateSymbols_eq (advances : token.Advances data start next)
    (literals_fit : Huffman.Fits literalLengths) (distances_fit : Huffman.Fits distanceLengths)
    (hasWords : token.HasWords literalLengths distanceLengths) (steps : Nat) (rest : List Bool) :
    inflateSymbols (.ofLengths literalLengths) (.ofLengths distanceLengths) (steps + 1)
        (.ofBits (token.bits (Huffman.words literalLengths)
          (Huffman.words distanceLengths) ++ rest))
        (data.extract 0 start) =
      inflateSymbols (.ofLengths literalLengths) (.ofLengths distanceLengths) steps (.ofBits rest)
        (data.extract 0 next) := by
  obtain ⟨length, present⟩ := hasWords.literal
  have read := Huffman.symbol?_words literals_fit present
  cases advances with
  | @literal byte found =>
      obtain ⟨inside, same⟩ := Array.getElem?_eq_some_iff.mp found
      rw [Token.literalSymbol] at read
      rw [Array.extract_succ_right (Nat.succ_pos start) inside, same]
      simp only [inflateSymbols, Token.bits, Token.literalSymbol, read, Option.bind_eq_bind,
        Option.bind_some, byte.toNat_lt, if_true, UInt8.ofNat_toNat]
  | @copy copied repeats =>
      obtain ⟨_, length_found, length_bounds⟩ := exists_copyLength repeats.length_bounds
      obtain ⟨_, distance_found, distance_bounds⟩ := exists_copyDistance repeats.distance_bounds
      obtain ⟨distance, distance_present⟩ := hasWords.distance _ rfl
      have distance_read := Huffman.symbol?_words distances_fit distance_present
      rw [← copyBack_extract repeats.distance_bounds.1 repeats.behind repeats.inside repeats.same]
      rw [Token.literalSymbol] at read
      generalize copy_symbol : endMark + 1 + rangeOf copyLengths copied.length = symbol at read
      have beyond : ¬symbol < 256 ∧ symbol ≠ 256 := by
        rw [← copy_symbol, endMark]
        omega
      have range_eq : symbol - 257 = rangeOf copyLengths copied.length := by
        rw [← copy_symbol, endMark, Nat.add_sub_cancel_left]
      simp only [inflateSymbols, Token.bits, Token.literalSymbol, copy_symbol, List.append_assoc,
        read, Option.bind_eq_bind, Option.bind_some, beyond, if_false, range_eq,
        extended?_selectingBits length_found length_bounds, distance_read,
        extended?_selectingBits distance_found distance_bounds]

/-- Tokens that stand for some data are read as the data, up to the end mark. -/
theorem inflateSymbols_bits (cuts : Cuts data start tokens stop)
    (names : Names literalLengths distanceLengths tokens) {steps : Nat}
    (enough : tokens.length < steps) (rest : List Bool) :
    inflateSymbols (.ofLengths literalLengths) (.ofLengths distanceLengths) steps
        (.ofBits (tokens.flatMap
          (Token.bits (Huffman.words literalLengths) (Huffman.words distanceLengths)) ++
          ((Huffman.words literalLengths)[endMark]?.getD [] ++ rest)))
        (data.extract 0 start) =
      some (data.extract 0 stop, .ofBits rest) := by
  obtain ⟨literals_fit, distances_fit, ⟨length, present⟩, hasWords⟩ := names
  induction cuts generalizing steps with
  | nil =>
      cases steps with
      | zero => cases enough
      | succ steps =>
          rw [inflateSymbols, List.flatMap_nil, List.nil_append,
            Huffman.symbol?_words literals_fit present]
          rfl
  | cons advances later ih =>
      obtain ⟨here, others⟩ := List.forall_mem_cons.mp hasWords
      cases steps with
      | zero => cases enough
      | succ steps =>
          rw [List.flatMap_cons, List.append_assoc,
            advances.inflateSymbols_eq literals_fit distances_fit here]
          exact ih (Nat.lt_of_succ_lt_succ enough) others

end Tokens

/-! ## Codes -/

section Codes

variable {data : Array UInt8} {start next stop : Nat} {token : Token} {tokens : List Token}

theorem Token.Advances.literalSymbol_lt (advances : token.Advances data start next) :
    token.literalSymbol < 286 := by
  cases advances with
  | @literal byte => exact Nat.lt_trans byte.toNat_lt (by decide)
  | copy repeats =>
      obtain ⟨_, found, -⟩ := exists_copyLength repeats.length_bounds
      exact Nat.add_lt_add_left (Array.getElem?_eq_some_iff.mp found).1 257

theorem Token.Advances.distanceSymbol_lt (advances : token.Advances data start next) :
    ∀ symbol ∈ token.distanceSymbol?, symbol < 30 := by
  intro symbol mentioned
  cases advances with
  | literal => cases mentioned
  | copy repeats =>
      cases mentioned
      obtain ⟨_, found, -⟩ := exists_copyDistance repeats.distance_bounds
      exact (Array.getElem?_eq_some_iff.mp found).1

theorem exists_length {lengths : List Nat} (positive : ∀ length ∈ lengths, 0 < length)
    {symbol : Nat} (inside : symbol < lengths.length) :
    ∃ length, lengths[symbol]? = some (length + 1) := by
  refine ⟨lengths[symbol] - 1, ?_⟩
  rw [Nat.sub_add_cancel (positive _ (List.getElem_mem inside))]
  exact List.getElem?_eq_getElem inside

theorem fixedLiteralLengths_bounds :
    ∀ length ∈ fixedLiteralLengths, 0 < length ∧ length ≤ Huffman.maxLength := by
  intro length member
  simp only [fixedLiteralLengths, List.mem_append, List.mem_replicate] at member
  rw [Huffman.maxLength]
  omega

theorem length_fixedLiteralLengths : fixedLiteralLengths.length = 288 := by
  simp only [fixedLiteralLengths, List.length_append, List.length_replicate]

theorem exists_fixedLiteralLength {symbol : Nat} (inside : symbol < 286) :
    ∃ length, fixedLiteralLengths[symbol]? = some (length + 1) :=
  exists_length (fun length member => (fixedLiteralLengths_bounds length member).1)
    (by rw [length_fixedLiteralLengths]; omega)

theorem names_fixed (cuts : Cuts data start tokens stop) :
    Names fixedLiteralLengths fixedDistanceLengths tokens where
  literals_fit :=
    ⟨fun length member => (fixedLiteralLengths_bounds length member).2, 0, by decide +kernel⟩
  distances_fit := ⟨by decide, 0, by decide +kernel⟩
  ended := exists_fixedLiteralLength (by decide)
  hasWords token member := by
    obtain ⟨position, next, advances⟩ := cuts.exists_advances token member
    refine ⟨exists_fixedLiteralLength advances.literalSymbol_lt, fun symbol mentioned => ?_⟩
    exact exists_length (by decide) (Nat.lt_trans (advances.distanceSymbol_lt symbol mentioned)
      (by decide))

theorem suits_own {count : Nat} (few : count ≤ 2 ^ 15) (symbols : List Nat) :
    Suits 15 (occurrences count symbols) (wordLengths 15 (occurrences count symbols)) :=
  suits_wordLengths (by decide) (by rwa [length_occurrences])

theorem Suits.exists_length {limit count symbol : Nat} {symbols lengths : List Nat}
    (suits : Suits limit (occurrences count symbols) lengths) (inside : symbol < count)
    (occurs : symbol ∈ symbols) : ∃ length, lengths[symbol]? = some (length + 1) :=
  suits.given (getElem?_occurrences inside symbols) (List.count_pos_iff.mpr occurs)

theorem names_own (cuts : Cuts data start tokens stop) :
    Names (wordLengths 15 (occurrences 286 (endMark :: tokens.map Token.literalSymbol)))
      (wordLengths 15 (occurrences 30 (tokens.filterMap Token.distanceSymbol?))) tokens where
  literals_fit := (suits_own (by decide) _).fits (by decide)
  distances_fit := (suits_own (by decide) _).fits (by decide)
  ended := (suits_own (by decide) _).exists_length (by decide) List.mem_cons_self
  hasWords token member := by
    obtain ⟨position, next, advances⟩ := cuts.exists_advances token member
    refine ⟨(suits_own (by decide) _).exists_length advances.literalSymbol_lt
      (List.mem_cons_of_mem _ (List.mem_map_of_mem member)), fun symbol mentioned => ?_⟩
    exact (suits_own (by decide) _).exists_length (advances.distanceSymbol_lt symbol mentioned)
      (List.mem_filterMap.mpr ⟨token, member, mentioned⟩)

end Codes

end HeapSampler.Gzip
