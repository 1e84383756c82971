import Mathlib
import HeapSampler.Proofs.Pprof.Messages
import HeapSampler.Proofs.Wire.Shortest

/-!
# Numbers of every kind

Unsigned numbers are sent as the words they are, signed ones as the words that they are cast to.
The main statement says of both kinds that a number is written within ten bytes and in its shortest
form, that it is read back from among whatever follows it, and that a packed list of such numbers is
read back as that list.
-/

namespace HeapSampler.Pprof

open HeapSampler.Wire

def readNumber? {β : Type} (ofWord : UInt64 → β) (input : List UInt8) : Option (β × List UInt8) :=
  (Varint.decode? input).map fun (word, rest) => (ofWord (UInt64.ofNat word), rest)

def readNumbers? {β : Type} (ofWord : UInt64 → β) (payload : List UInt8) : Option (List β) :=
  (packed? payload).map fun words => words.map fun word => ofWord (UInt64.ofNat word)

/-- What can be said of the bytes of a number whose kind is cast to words and back. -/
structure WrittenShortest (β : Type) [Payload β] (toWord : β → UInt64) (ofWord : UInt64 → β) :
    Prop where
  /-- The loop over the word stays in its buffer and leaves the number's bytes there. -/
  buffered : ∀ value : β, ∃ full, Varint.Buffer.fill? {} (toWord value) = some full ∧
    full.written = Payload.encode value
  read_back : ∀ (value : β) (rest : List UInt8),
    readNumber? ofWord (Payload.encode value ++ rest) = some (value, rest)
  /-- No other bytes that are read as the number are fewer. -/
  shortest : ∀ {value : β} {input rest : List UInt8}, 
    readNumber? ofWord input = some (value, rest) →
    (Payload.encode value).length + rest.length ≤ input.length
  /-- The bytes of one number do not begin those of another. -/
  separate : ∀ {one other : β}, Payload.encode one <+: Payload.encode other → one = other
  tenth : ∀ {value : β} {byte : UInt8}, (Payload.encode value)[9]? = some byte → byte = 1
  packed : ∀ values : List β, readNumbers? ofWord (Payload.encode values) = some values

section Casts

variable {β : Type} [Payload β] [Word β] {toWord : β → UInt64} {ofWord : UInt64 → β}

theorem readNumber?_encode (back : ∀ value : β, ofWord (UInt64.ofNat (Word.word value)) = value)
    (value : β) (rest : List UInt8) :
    readNumber? ofWord (Payload.encode value ++ rest) = some (value, rest) := by
  rw [readNumber?, Word.encode_eq, Varint.decode?_encode (Word.word_lt value), Option.map_some]
  dsimp only
  rw [back]

theorem readNumbers?_encode (back : ∀ value : β, ofWord (UInt64.ofNat (Word.word value)) = value)
    (values : List β) : readNumbers? ofWord (Payload.encode values) = some values := by
  have unpacked : packed? (Payload.encode values) = some (values.map Word.word) :=
    packed?_flatMap values
  rw [readNumbers?, unpacked, Option.map_some, List.map_map]
  exact congrArg some ((List.map_congr_left fun value _ => back value).trans (List.map_id values))

theorem length_le_of_readNumber? (sent : ∀ value : β, Word.word value = (toWord value).toNat)
    (forth : ∀ word, toWord (ofWord word) = word) {value : β} {input rest : List UInt8}
    (read : readNumber? ofWord input = some (value, rest)) :
    (Payload.encode value).length + rest.length ≤ input.length := by
  obtain ⟨⟨word, rest'⟩, decoded, same⟩ := Option.map_eq_some_iff.mp read
  cases same
  rw [Word.encode_eq, sent, forth, UInt64.toNat_ofNat_of_lt' (Varint.lt_of_decode? decoded)]
  exact Varint.length_le_of_decode? decoded

/-- What is written for one number does not go on to what is written for another. -/
theorem eq_of_begins (back : ∀ value : β, ofWord (UInt64.ofNat (Word.word value)) = value)
    {one other : β} (begins : Payload.encode one <+: Payload.encode other) : one = other := by
  obtain ⟨tail, whole⟩ := begins
  have first := readNumber?_encode back one tail
  have second := readNumber?_encode back other []
  rw [List.append_nil, ← whole, first] at second
  exact (Prod.mk.inj (Option.some.inj second)).1

theorem ofWord_word (sent : ∀ value : β, Word.word value = (toWord value).toNat)
    (back : ∀ value, ofWord (toWord value) = value) (value : β) :
    ofWord (UInt64.ofNat (Word.word value)) = value := by
  rw [sent, UInt64.ofNat_toNat, back]

/-- A number that is cast to a word without loss is written as shortly as the word is. -/
theorem WrittenShortest.of_casts (sent : ∀ value : β, Word.word value = (toWord value).toNat)
    (back : ∀ value, ofWord (toWord value) = value) (forth : ∀ word, toWord (ofWord word) = word) :
    WrittenShortest β toWord ofWord where
  buffered value := by
    rw [Word.encode_eq, sent]
    exact Varint.fill?_empty (toWord value)
  read_back := readNumber?_encode (ofWord_word sent back)
  shortest := length_le_of_readNumber? sent forth
  separate := eq_of_begins (ofWord_word sent back)
  tenth {value byte} present := by
    rw [Word.encode_eq] at present
    exact Varint.tenth_of_encode (Word.word_lt value) present
  packed := readNumbers?_encode (ofWord_word sent back)

end Casts

/-- The highest bit of the word is the sign. -/
theorem pow_le_toUInt64_iff (value : Int64) : 2 ^ 63 ≤ value.toUInt64.toNat ↔ value < 0 := by
  rw [Int64.lt_iff_toInt_lt]
  change 2 ^ 63 ≤ value.toBitVec.toNat ↔ value.toBitVec.toInt < 0
  rw [BitVec.toInt_neg_iff]
  omega

/-- Numbers of both kinds are written shortest, and a signed one takes ten bytes just when it is
negative.  Packed lists of offsets are read back as well. -/
theorem written_shortest_of_numbers :
    WrittenShortest UInt64 id id ∧ WrittenShortest Int64 Int64.toUInt64 UInt64.toInt64 ∧
      (∀ value : Int64, (Payload.encode value).length = 10 ↔ value < 0) ∧
      ∀ offsets : List StringOffset,
        readNumbers? (fun word => ⟨word.toUInt32⟩) (Payload.encode offsets) = some offsets := by
  refine ⟨.of_casts (fun _ => rfl) (fun _ => rfl) (fun _ => rfl),
    .of_casts (fun _ => rfl) Int64.toInt64_toUInt64 UInt64.toUInt64_toInt64, fun value => ?_,
    fun offsets => ?_⟩
  · rw [← pow_le_toUInt64_iff, ← Varint.size_eq_maxSize_iff value.toUInt64.toNat_lt,
      Varint.size_eq_length]
    rfl
  · refine readNumbers?_encode (fun offset => congrArg StringOffset.mk ?_) offsets
    rw [← UInt32.toNat_inj, UInt64.toNat_toUInt32, UInt64.toNat_ofNat_of_lt' (Word.word_lt offset)]
    exact Nat.mod_eq_of_lt offset.toNat_lt

/-- A longer form of a number is read too, but it is not what is written. -/
example :
    readNumber? id [0xAC, 0x82, 0x00, 0x07] = some (300, [0x07]) ∧
      Payload.encode (300 : UInt64) = [0xAC, 0x02] ∧
      (Varint.Buffer.fill? {} 300).map (·.written) = some [0xAC, 0x02] := by
  decide +kernel

end HeapSampler.Pprof
