import HeapSampler.Json.Syntax
import HeapSampler.Number.Reading

/-!
# What JSON numbers mean

A natural number is digits alone and fits 64 bits.  A double is found in two roundings: as many
leading digits as fit 64 bits are taken as a whole number, further digits only shift the exponent
or are dropped, and the whole number, as a double, is multiplied or divided by a power of ten.
-/

namespace HeapSampler.JsonNumber

def wordLimit : Nat := 18446744073709551616

/-- Appends digits while the number fits 64 bits; also returns how many digits are left over. -/
def appendDigits (value : Nat) : List Nat → Nat × Nat
  | [] => (value, 0)
  | digit :: rest =>
      if 10 * value + digit < wordLimit then appendDigits (10 * value + digit) rest
      else (value, rest.length + 1)

def maxExponent : Int := 2147483647

def powerOfTen (exponent : Nat) : Float :=
  Number.floatOfDecimal false 1 exponent

def maxPower : Nat := 308

def dividedByPower (value : Float) (exponent : Nat) : Float :=
  if exponent ≤ maxPower then value / powerOfTen exponent
  else if value == 0 then value
  else dividedByPower (value / powerOfTen maxPower) (exponent - maxPower)
termination_by exponent
decreasing_by
  have : 0 < maxPower := by decide
  omega

def timesPower? (value : Nat) (exponent : Int) : Option Float :=
  let whole := (UInt64.ofNat value).toFloat
  if exponent < 0 then some (dividedByPower whole exponent.natAbs)
  else if exponent ≤ maxPower then
    let product := whole * powerOfTen exponent.toNat
    if product.isInf then none else some product
  else if value = 0 then some whole
  else none

def withSign (number : JsonNumber) (value : Float) : Float :=
  if number.negative then -value else value

def float? (number : JsonNumber) : Option Float :=
  let (leading, shifted) := appendDigits 0 number.whole
  let fraction := number.fraction.getD []
  let (value, dropped) := appendDigits leading fraction
  let shift : Int := shifted - (fraction.length - dropped : Nat)
  match number.exponent with
  | none => (timesPower? value shift).map number.withSign
  | some (negative, digits) =>
      let exponent : Int := Number.natOfDigits digits
      if maxExponent < exponent then
        if value = 0 ∨ negative then some (number.withSign 0) else none
      else
        let total := max (-maxExponent - 1) (min maxExponent <|
          if negative then shift - exponent else shift + exponent)
        (timesPower? value total).map number.withSign

def natural? (number : JsonNumber) : Option Nat :=
  if number.negative ∨ number.fraction.isSome ∨ number.exponent.isSome then none
  else
    match appendDigits 0 number.whole with
    | (value, 0) => some value
    | _ => none

end HeapSampler.JsonNumber
