import HeapSampler.Number.Binary64

/-!
# Numbers from text

The whole text has to be a number.  A double is digits with an optional point among them, an
optional exponent, and an optional sign; or infinity or not-a-number by name in any case.  An
integer is digits alone, behind a sign if there is one, and has to lie in the range asked for.
-/

namespace HeapSampler.Number

def digit? (char : Char) : Option Nat :=
  if '0' ≤ char ∧ char ≤ '9' then some (char.toNat - '0'.toNat) else none

def digitsOf : List Char → List Nat
  | [] => []
  | char :: rest =>
      match digit? char with
      | some digit => digit :: digitsOf rest
      | none => []

def natOfDigits (digits : List Nat) : Nat :=
  digits.foldl (fun value digit => 10 * value + digit) 0

/-- Takes a sign off the front; true is minus. -/
def signed : List Char → Bool × List Char
  | '-' :: rest => (true, rest)
  | '+' :: rest => (false, rest)
  | chars => (false, chars)

/-- The integer that the text is, if its digits are all there is to it and there is at least one. -/
def natural? (chars : List Char) : Option Nat :=
  let digits := digitsOf chars
  if digits = [] ∨ digits.length < chars.length then none else some (natOfDigits digits)

def integer? (low high : Int) (chars : List Char) : Option Int :=
  let (negative, rest) := signed chars
  if negative ∧ 0 ≤ low then none
  else
    match natural? rest with
    | none => none
    | some magnitude =>
        let value : Int := if negative then -magnitude else magnitude
        if low ≤ value ∧ value ≤ high then some value else none

/-- The exponent that a text is: nothing at all, or a mark, a sign if any, and digits. -/
def exponent? : List Char → Option Int
  | [] => some 0
  | mark :: rest =>
      if mark = 'e' ∨ mark = 'E' then
        let (negative, rest) := signed rest
        (natural? rest).map fun magnitude => if negative then -magnitude else magnitude
      else none

/-- The double that a text without a sign is, by digits. -/
def decimal? (negative : Bool) (chars : List Char) : Option Float :=
  let whole := digitsOf chars
  let afterWhole := chars.drop whole.length
  let (fraction, afterFraction) := match afterWhole with
    | '.' :: rest => (digitsOf rest, rest.drop (digitsOf rest).length)
    | rest => ([], rest)
  if whole = [] ∧ fraction = [] then none
  else
    (exponent? afterFraction).map fun exponent =>
      floatOfDecimal negative (natOfDigits (whole ++ fraction)) (exponent - fraction.length)

def lowerCase (char : Char) : Char := char.toLower

def float? (chars : List Char) : Option Float :=
  let (negative, rest) := signed chars
  let name := rest.map lowerCase
  if name = "inf".toList ∨ name = "infinity".toList then
    some (floatOfMagnitude negative Binary64.infinityBits)
  else if name = "nan".toList then some (0 / 0)
  else decimal? negative rest

end HeapSampler.Number
