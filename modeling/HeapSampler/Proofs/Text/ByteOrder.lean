import Mathlib
import HeapSampler.Proofs.Wire.Fields

/-!
# Texts in byte order

Texts are ordered by their characters.  That is the order of their bytes as well: of two characters
the one that comes later has the greater byte where their encodings first differ, and neither
encoding goes on where the other one ends.
-/

namespace HeapSampler.Text

def bytes (text : String) : List UInt8 := text.toUTF8.toList

theorem bytes_eq (text : String) : bytes text = text.toList.flatMap String.utf8EncodeChar := by
  rw [bytes, Wire.toList_eq_data, String.toUTF8_eq_toByteArray, ← String.utf8Encode_toList]
  exact List.toList_data_toByteArray

/-- Of two runs of digits the first difference decides. -/
theorem ofNat_cons_lt_cons {low high : Nat} {rest others : List UInt8} (bounded : high < 256)
    (ordered : low ≤ high) (later : low = high → rest < others) :
    UInt8.ofNat low :: rest < UInt8.ofNat high :: others := by
  rw [List.cons_lt_cons_iff]
  rcases Nat.lt_or_eq_of_le ordered with less | same
  · apply Or.inl
    rw [UInt8.lt_iff_toNat_lt, Wire.Varint.toNat_ofNat bounded,
      Wire.Varint.toNat_ofNat (Nat.lt_trans less bounded)]
    exact less
  · exact .inr ⟨congrArg UInt8.ofNat same, later same⟩

/-- The earlier of two characters has the lower bytes, whatever follows them. -/
theorem encodeChar_append_lt {first second : Char} (less : first < second)
    (rest others : List UInt8) :
    String.utf8EncodeChar first ++ rest < String.utf8EncodeChar second ++ others := by
  have bounded : second.val.toNat < 1114112 := by
    have valid := second.valid
    simp only [UInt32.isValidChar, Nat.isValidChar] at valid
    omega
  have less : first.val.toNat < second.val.toNat := UInt32.lt_iff_toNat_lt.mp less
  simp only [String.utf8EncodeChar]
  generalize first.val.toNat = low at less
  generalize second.val.toNat = high at less bounded
  -- A longer encoding begins with a greater byte; two of one length are compared digit by digit.
  by_cases four : 65535 < high
  · rw [if_neg (show ¬high ≤ 127 by omega), if_neg (show ¬high ≤ 2047 by omega),
      if_neg (show ¬high ≤ 65535 by omega)]
    split_ifs
    · exact ofNat_cons_lt_cons (by omega) (by omega) (by omega)
    · exact ofNat_cons_lt_cons (by omega) (by omega) (by omega)
    · exact ofNat_cons_lt_cons (by omega) (by omega) (by omega)
    · refine ofNat_cons_lt_cons (by omega) (by omega) fun first_same => ?_
      refine ofNat_cons_lt_cons (by omega) (by omega) fun second_same => ?_
      refine ofNat_cons_lt_cons (by omega) (by omega) fun third_same => ?_
      exact ofNat_cons_lt_cons (by omega) (by omega) (by omega)
  by_cases three : 2047 < high
  · rw [if_neg (show ¬high ≤ 127 by omega), if_neg (show ¬high ≤ 2047 by omega),
      if_pos (show high ≤ 65535 by omega), if_pos (show low ≤ 65535 by omega)]
    split_ifs
    · exact ofNat_cons_lt_cons (by omega) (by omega) (by omega)
    · exact ofNat_cons_lt_cons (by omega) (by omega) (by omega)
    · refine ofNat_cons_lt_cons (by omega) (by omega) fun first_same => ?_
      refine ofNat_cons_lt_cons (by omega) (by omega) fun second_same => ?_
      exact ofNat_cons_lt_cons (by omega) (by omega) (by omega)
  by_cases two : 127 < high
  · rw [if_neg (show ¬high ≤ 127 by omega), if_pos (show high ≤ 2047 by omega),
      if_pos (show low ≤ 2047 by omega)]
    split_ifs
    · exact ofNat_cons_lt_cons (by omega) (by omega) (by omega)
    · refine ofNat_cons_lt_cons (by omega) (by omega) fun first_same => ?_
      exact ofNat_cons_lt_cons (by omega) (by omega) (by omega)
  rw [if_pos (show high ≤ 127 by omega), if_pos (show low ≤ 127 by omega)]
  exact ofNat_cons_lt_cons (by omega) (by omega) (by omega)

/-- Bytes are ordered as the characters that they encode. -/
theorem flatMap_encodeChar_lt {first second : List Char} (less : first < second) :
    first.flatMap String.utf8EncodeChar < second.flatMap String.utf8EncodeChar := by
  induction first generalizing second with
  | nil =>
      cases second with
      | nil => exact absurd less (lt_irrefl _)
      | cons char rest =>
          rw [List.flatMap_nil, List.flatMap_cons]
          obtain ⟨byte, tail, encoded⟩ :=
            List.exists_cons_of_ne_nil (String.utf8EncodeChar_ne_nil (c := char))
          rw [encoded]
          exact List.nil_lt_cons _ _
  | cons char rest ih =>
      cases second with
      | nil => exact absurd less (List.not_lt_nil _)
      | cons other others =>
          rw [List.flatMap_cons, List.flatMap_cons]
          rcases List.cons_lt_cons_iff.mp less with below | ⟨rfl, later⟩
          · exact encodeChar_append_lt below _ _
          · exact List.append_left_lt (ih later)

theorem bytes_lt {first second : String} (less : first < second) : bytes first < bytes second := by
  rw [bytes_eq, bytes_eq]
  exact flatMap_encodeChar_lt (String.lt_iff_toList_lt.mp less)

/-- Texts are in the order of their bytes. -/
theorem bytes_lt_iff (first second : String) : bytes first < bytes second ↔ first < second := by
  constructor
  · intro below
    rcases lt_trichotomy first second with less | rfl | greater
    · exact less
    · exact absurd below (List.lt_irrefl _)
    · exact absurd below (List.lt_asymm (bytes_lt greater))
  · exact bytes_lt

end HeapSampler.Text
