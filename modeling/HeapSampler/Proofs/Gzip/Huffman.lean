import HeapSampler.Proofs.Lists
import HeapSampler.Proofs.Gzip.Bits
import HeapSampler.Gzip.Huffman

/-!
# Code words are read as their symbols

A reader of a canonical code goes from one length of code words to the next.  Words that are shorter
than the one in front of it stand for smaller numbers than its first bits do, so it passes them by,
and at the right length it counts its way to the symbol.
-/

namespace HeapSampler.Gzip.Huffman

/-! ## Reading a word -/

theorem word_succ (length code : Nat) :
    word (length + 1) code = code.testBit length :: word length code := by
  simp [word, bitsOfNat, List.range_succ]

theorem two_mul_div_add_testBit (code length : Nat) :
    2 * (code / 2 ^ (length + 1)) + (code.testBit length).toNat = code / 2 ^ length := by
  rw [Nat.toNat_testBit, Nat.pow_succ, ← Nat.div_div_eq_div_mul]
  omega

/-- A word of one bit more has at least twice the number. -/
theorem mul_le_of_lowestWords {counts : List Nat} {first length lowest : Nat}
    (found : (lowestWords first counts)[length]? = some lowest) : first * 2 ^ length ≤ lowest := by
  induction counts generalizing first length with
  | nil => simp [lowestWords] at found
  | cons count counts ih =>
      cases length with
      | zero =>
          cases found
          rw [Nat.pow_zero, Nat.mul_one]
      | succ length =>
          calc
            first * 2 ^ (length + 1) = 2 * first * 2 ^ length := by ring
            _ ≤ 2 * (first + count) * 2 ^ length := by gcongr; omega
            _ ≤ lowest := ih found

theorem symbolFrom_word (symbols : Array Nat) {counts : List Nat} {first length count lowest : Nat}
    {code : Nat} (counted : counts[length]? = some count)
    (found : (lowestWords first counts)[length]? = some lowest) (above : lowest ≤ code)
    (below : code < lowest + count) (index : Nat) (rest : List Bool) :
    symbolFrom symbols counts (2 * (code / 2 ^ (length + 1))) first index
        (.ofBits (word (length + 1) code ++ rest)) =
      (symbols[index + ((counts.take length).sum + (code - lowest))]?).map fun symbol =>
        (symbol, .ofBits rest) := by
  induction counts generalizing first length index with
  | nil => cases counted
  | cons own counts ih =>
      rw [symbolFrom, word_succ, List.cons_append, Cursor.bit?_ofBits, Option.bind_eq_bind,
        Option.bind_some]
      simp only [two_mul_div_add_testBit]
      cases length with
      | zero =>
          cases counted
          cases found
          rw [Nat.pow_zero, Nat.div_one, if_pos below]
          simp [word, bitsOfNat]
      | succ length =>
          have larger : 2 * (first + own) * 2 ^ length ≤ lowest := mul_le_of_lowestWords found
          have passed : ¬code / 2 ^ (length + 1) < first + own := by
            rw [Nat.not_lt, Nat.le_div_iff_mul_le (Nat.two_pow_pos _)]
            calc
              (first + own) * 2 ^ (length + 1) = 2 * (first + own) * 2 ^ length := by ring
              _ ≤ code := larger.trans above
          rw [if_neg passed, ih counted found, List.take_succ_cons, List.sum_cons]
          simp only [Nat.add_assoc]

/-! ## Room for all words -/

/-- As long as no words collide, a length has room for its words behind the shorter ones. -/
theorem add_le_of_unused {counts : List Nat} {free first left length lowest count digits : Nat}
    (fits : unused free counts = some left) (split : first + 2 * free = 2 ^ digits)
    (counted : counts[length]? = some count)
    (found : (lowestWords first counts)[length]? = some lowest) :
    lowest + count ≤ 2 ^ (digits + length) := by
  induction counts generalizing free first length digits with
  | nil => cases counted
  | cons own counts ih =>
      rw [unused] at fits
      split at fits
      · rename_i room
        cases length with
        | zero =>
            cases counted
            cases found
            rw [Nat.add_zero, ← split]
            omega
        | succ length =>
            have split' : 2 * (first + own) + 2 * (2 * free - own) = 2 ^ (digits + 1) := by
              rw [Nat.pow_succ, ← split]
              omega
            have later := ih fits split' counted found
            rwa [Nat.add_right_comm] at later
      · cases fits

/-! ## The words of a code -/

theorem getElem?_wordsFrom {lengths next : List Nat} {symbol length : Nat}
    (present : lengths[symbol]? = some (length + 1)) (inside : length < next.length) :
    (wordsFrom lengths next)[symbol]? =
      some (word (length + 1) (next[length] + (lengths.take symbol).count (length + 1))) := by
  induction lengths generalizing next symbol with
  | nil => cases present
  | cons own lengths ih =>
      cases symbol with
      | zero =>
          cases present
          simp [wordsFrom, inside]
      | succ symbol =>
          rw [List.take_succ_cons, List.count_cons]
          cases own with
          | zero => simpa [wordsFrom] using ih present inside
          | succ own =>
              have inside' : length < (next.modify own (· + 1)).length := by
                simpa using inside
              have counted := ih present inside'
              simp only [wordsFrom, List.getElem?_cons_succ, counted, List.getElem_modify]
              by_cases same : own = length
              · simp [same, Nat.add_assoc, Nat.add_comm 1]
              · simp [same]

/-! ## The symbols of a code -/

theorem length_withLength (length : Nat) (lengths : List Nat) :
    (withLength length lengths).length = lengths.count length := by
  have each (start : Nat) :
      ((lengths.zipIdx start).filter fun entry => entry.1 = length).length =
        lengths.count length := by
    induction lengths generalizing start with
    | nil => rfl
    | cons own lengths ih =>
        rw [List.zipIdx_cons, List.filter_cons, List.count_cons]
        by_cases same : own = length
        · simp [same, ih]
        · simp [same, ih]
  rw [withLength, List.length_map, each]

theorem getElem?_withLength {lengths : List Nat} {symbol length : Nat}
    (present : lengths[symbol]? = some length) :
    (withLength length lengths)[(lengths.take symbol).count length]? = some symbol := by
  have each (start : Nat) :
      (((lengths.zipIdx start).filter fun entry => entry.1 = length).map
        Prod.snd)[(lengths.take symbol).count length]? = some (start + symbol) := by
    induction lengths generalizing start symbol with
    | nil => cases present
    | cons own lengths ih =>
        rw [List.zipIdx_cons, List.filter_cons]
        cases symbol with
        | zero =>
            cases present
            simp
        | succ symbol =>
            rw [List.take_succ_cons, List.count_cons]
            by_cases same : own = length
            · simpa [same, Nat.add_assoc, Nat.add_comm 1] using ih present (start + 1)
            · simpa [same, Nat.add_assoc, Nat.add_comm 1] using ih present (start + 1)
  rw [withLength, each 0, Nat.zero_add]

theorem getElem?_counts (lengths : List Nat) {length : Nat} (short : length < maxLength) :
    (ofLengths lengths).counts[length]? = some (lengths.count (length + 1)) := by
  simp [ofLengths, short]

theorem size_symbols (lengths : List Nat) :
    (ofLengths lengths).symbols.size = (ofLengths lengths).counts.sum := by
  simp [ofLengths, List.length_flatMap, length_withLength]

theorem getElem?_symbols {lengths : List Nat} {symbol length : Nat}
    (present : lengths[symbol]? = some (length + 1)) (short : length < maxLength) :
    (ofLengths lengths).symbols[((ofLengths lengths).counts.take length).sum +
      (lengths.take symbol).count (length + 1)]? = some symbol := by
  have found : (List.range maxLength)[length]? = some length := by simp [short]
  have before : (ofLengths lengths).counts.take length =
      ((List.range maxLength).take length).map fun own =>
        (withLength (own + 1) lengths).length := by
    simp only [ofLengths, List.map_take, length_withLength]
  have own := getElem?_withLength present
  have inside := (List.getElem?_eq_some_iff.mp own).1
  rw [before]
  simpa [ofLengths] using (getElem?_flatMap found inside).trans own

/-- Symbols behind the last one that has a word do not matter. -/
theorem ofLengths_append_zeros (lengths : List Nat) (count : Nat) :
    ofLengths (lengths ++ List.replicate count 0) = ofLengths lengths := by
  have none_counted (length : Nat) :
      withLength (length + 1) (lengths ++ List.replicate count 0) =
        withLength (length + 1) lengths := by
    have none_left : ((List.replicate count 0).zipIdx lengths.length).filter
        (fun entry => entry.1 = length + 1) = [] := by
      refine List.filter_eq_nil_iff.mpr fun entry member => ?_
      have zero := List.eq_of_mem_replicate (List.fst_mem_of_mem_zipIdx member)
      simp [zero]
    rw [withLength, List.zipIdx_append, List.filter_append, Nat.zero_add, none_left,
      List.append_nil, withLength]
  simp only [ofLengths, none_counted, ← length_withLength]

/-! ## Codes -/

/-- No word begins another one, and none is longer than a reader expects. -/
structure Fits (lengths : List Nat) : Prop where
  short : ∀ length ∈ lengths, length ≤ maxLength
  free : ∃ left, unused 1 (ofLengths lengths).counts = some left

theorem Fits.short_of_getElem? {lengths : List Nat} (fits : Fits lengths) {symbol length : Nat}
    (present : lengths[symbol]? = some (length + 1)) : length < maxLength :=
  fits.short _ (List.mem_of_getElem? present)

theorem length_lowestWords (first : Nat) (counts : List Nat) :
    (lowestWords first counts).length = counts.length := by
  induction counts generalizing first with
  | nil => rfl
  | cons count counts ih => rw [lowestWords, List.length_cons, ih, List.length_cons]

theorem count_take_lt {lengths : List Nat} {symbol length : Nat}
    (present : lengths[symbol]? = some length) :
    (lengths.take symbol).count length < lengths.count length := by
  obtain ⟨inside, own⟩ := List.getElem?_eq_some_iff.mp present
  calc
    (lengths.take symbol).count length < (lengths.take (symbol + 1)).count length := by
      rw [List.take_succ_eq_append_getElem inside, List.count_append, own]
      simp
    _ ≤ lengths.count length := (List.take_sublist _ _).count_le _

/-- The words of one length are numbered from the lowest on. -/
theorem exists_word {lengths : List Nat} (fits : Fits lengths) {symbol length : Nat}
    (present : lengths[symbol]? = some (length + 1)) :
    ∃ lowest, (lowestWords 0 (ofLengths lengths).counts)[length]? = some lowest ∧
      (words lengths)[symbol]? =
        some (word (length + 1) (lowest + (lengths.take symbol).count (length + 1))) := by
  have short := fits.short_of_getElem? present
  have inside : length < (lowestWords 0 (ofLengths lengths).counts).length := by
    rw [length_lowestWords]
    simpa [ofLengths] using short
  refine ⟨_, List.getElem?_eq_getElem inside, ?_⟩
  rw [words, List.getElem?_toArray, getElem?_wordsFrom present inside]

/-- A word is read as its symbol, whatever follows it. -/
theorem symbol?_words {lengths : List Nat} (fits : Fits lengths) {symbol length : Nat}
    (present : lengths[symbol]? = some (length + 1)) (rest : List Bool) :
    (ofLengths lengths).symbol? (.ofBits ((words lengths)[symbol]?.getD [] ++ rest)) =
      some (symbol, .ofBits rest) := by
  obtain ⟨lowest, found, own⟩ := exists_word fits present
  obtain ⟨left, free⟩ := fits.free
  have short := fits.short_of_getElem? present
  have counted := getElem?_counts lengths short
  have earlier := count_take_lt present
  have room := add_le_of_unused free (show 0 + 2 * 1 = 2 ^ 1 from rfl) counted found
  have fresh : (lowest + (lengths.take symbol).count (length + 1)) / 2 ^ (length + 1) = 0 := by
    apply Nat.div_eq_of_lt
    rw [Nat.add_comm 1 length] at room
    omega
  have read := symbolFrom_word (ofLengths lengths).symbols counted found (Nat.le_add_right lowest _)
    (Nat.add_lt_add_left earlier lowest) 0 rest
  rw [fresh, Nat.zero_add, Nat.add_sub_cancel_left, getElem?_symbols present short] at read
  rw [own, Option.getD_some]
  exact read

theorem words_ne_nil {lengths : List Nat} (fits : Fits lengths) {symbol length : Nat}
    (present : lengths[symbol]? = some (length + 1)) : (words lengths)[symbol]?.getD [] ≠ [] := by
  obtain ⟨lowest, -, own⟩ := exists_word fits present
  rw [own, Option.getD_some, word_succ]
  exact List.cons_ne_nil _ _

end HeapSampler.Gzip.Huffman
