/-!
# JSON as it is written

Numbers keep their digits and strings their escapes, since what they mean depends on who asks, and
what nobody asks for need not mean anything.
-/

namespace HeapSampler

/-- One element of a string: a character, or a UTF-16 code unit given by an escape. -/
inductive JsonUnit where
  | plain (char : Char)
  | escaped (unit : Nat)
  deriving DecidableEq, Repr

structure JsonNumber where
  negative : Bool
  whole : List Nat
  /-- The digits behind the point, if there is one. -/
  fraction : Option (List Nat)
  /-- Whether the exponent is negative, and its digits, if there is one. -/
  exponent : Option (Bool × List Nat)
  deriving DecidableEq, Repr

/-- A JSON text; the members of an object stand in the order of the text and may repeat. -/
inductive Json where
  | null
  | bool (value : Bool)
  | number (number : JsonNumber)
  | string (units : List JsonUnit)
  | array (items : List Json)
  | object (members : List (List JsonUnit × Json))

/-- The text of a string, if its escapes are characters or well-formed pairs of surrogates. -/
def JsonUnit.text? : List JsonUnit → Option (List Char)
  | [] => some []
  | .plain char :: rest => (text? rest).map (char :: ·)
  | .escaped unit :: rest =>
      if unit < 0xD800 ∨ 0xDFFF < unit then (text? rest).map (Char.ofNat unit :: ·)
      else
        match rest with
        | .escaped low :: rest =>
            if unit < 0xDC00 ∧ 0xDC00 ≤ low ∧ low ≤ 0xDFFF then
              let code := 0x10000 + (unit - 0xD800) * 0x400 + (low - 0xDC00)
              (text? rest).map (Char.ofNat code :: ·)
            else none
        | _ => none

end HeapSampler
