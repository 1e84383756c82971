/-!
# Doubles as exact numbers

A finite double is a sign and a natural number times a power of two.  In the other direction every
quotient of natural numbers has a nearest double; of two equally near ones the even one counts, and
quotients beyond the largest double become infinite.
-/

namespace HeapSampler.Number

inductive Binary64 where
  | nan
  | infinite (negative : Bool)
  /-- The number `mantissa * 2 ^ exponent`, or its opposite. -/
  | finite (negative : Bool) (mantissa : Nat) (exponent : Int)
  deriving DecidableEq, Repr

namespace Binary64

def minExponent : Int := -1074

/-- How many values the fraction of a double has. -/
def fractions : Nat := 4503599627370496

def signBit : Nat := 9223372036854775808

def infinityBits : Nat := 2047 * fractions

def ofBits (bits : UInt64) : Binary64 :=
  let negative := signBit ≤ bits.toNat
  let magnitude := bits.toNat % signBit
  let biased := magnitude / fractions
  let fraction := magnitude % fractions
  if biased = 2047 then if fraction = 0 then infinite negative else nan
  else if biased = 0 then finite negative fraction minExponent
  else finite negative (fractions + fraction) (biased + minExponent - 1)

def ofFloat (value : Float) : Binary64 :=
  ofBits value.toBits

end Binary64

/-- The natural number nearest to a quotient; halfway the even neighbour. -/
def roundHalfEven (numerator denominator : Nat) : Nat :=
  let quotient := numerator / denominator
  let twice := 2 * (numerator % denominator)
  if twice < denominator then quotient
  else if denominator < twice then quotient + 1
  else quotient + quotient % 2

/-- The natural number nearest to a quotient; halfway the upper neighbour. -/
def roundHalfUp (numerator denominator : Nat) : Nat :=
  (2 * numerator + denominator) / (2 * denominator)

def scaled (numerator denominator : Nat) (exponent : Int) : Nat × Nat :=
  if 0 ≤ exponent then (numerator, denominator * Nat.pow 2 exponent.toNat)
  else (numerator * Nat.pow 2 (-exponent).toNat, denominator)

/-- The exponent of the highest power of two that is at most the quotient. -/
def binaryOrder (numerator denominator : Nat) : Int :=
  let estimate : Int := numerator.log2 - denominator.log2
  let (above, below) := scaled numerator denominator estimate
  if below ≤ above then estimate else estimate - 1

/-- The bits of the double nearest to a quotient with a denominator above zero. -/
def nearestBits (numerator denominator : Nat) : Nat :=
  if numerator = 0 then 0
  else
    let exponent := max (binaryOrder numerator denominator - 52) Binary64.minExponent
    let (above, below) := scaled numerator denominator exponent
    let mantissa := roundHalfEven above below
    let biased := (exponent - Binary64.minExponent).toNat
    min (biased * Binary64.fractions + mantissa) Binary64.infinityBits

def floatOfMagnitude (negative : Bool) (magnitude : Nat) : Float :=
  Float.ofBits (UInt64.ofNat (if negative then Binary64.signBit + magnitude else magnitude))

/-- The largest decimal order that is computed with; beyond it doubles are infinite or zero. -/
def maxDecimalOrder : Int := 400

/-- The double nearest to `digits * 10 ^ exponent` or its opposite. -/
def floatOfDecimal (negative : Bool) (digits : Nat) (exponent : Int) : Float :=
  let order : Int := (Nat.toDigits 10 digits).length + exponent
  floatOfMagnitude negative <|
    if digits = 0 ∨ order < -maxDecimalOrder then 0
    else if maxDecimalOrder < order then Binary64.infinityBits
    else if 0 ≤ exponent then nearestBits (digits * Nat.pow 10 exponent.toNat) 1
    else nearestBits digits (Nat.pow 10 (-exponent).toNat)

end HeapSampler.Number
