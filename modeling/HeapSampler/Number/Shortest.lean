import HeapSampler.Number.Binary64

/-!
# The fewest digits that read back

Every double is nearest to all numbers of an interval around it.  Its shortest decimal form is a
point of that interval on the coarsest decimal grid that has one there; of two such points the one
nearer to the double, and halfway between them the upper one.  The digits are written out by
position, never with an exponent.
-/

namespace HeapSampler.Number

/-- The numbers that round to a double, in quarters of its unit: `centre` is the double itself. -/
structure Interval where
  low : Nat
  centre : Nat
  high : Nat
  /-- Whether the ends round to the double too. -/
  closed : Bool
  /-- The exponent of two of the quarters. -/
  exponent : Int

namespace Interval

/-- Below a power of two the doubles lie twice as close, but for the smallest ones. -/
def ofDouble (mantissa : Nat) (exponent : Int) : Interval where
  low :=
    if mantissa = Binary64.fractions ∧ Binary64.minExponent < exponent then 4 * mantissa - 1
    else 4 * mantissa - 2
  centre := 4 * mantissa
  high := 4 * mantissa + 2
  closed := mantissa % 2 = 0
  exponent := exponent - 2

/-- What to multiply grid points and quarters by to compare them as natural numbers. -/
def factors (interval : Interval) (grid : Int) : Nat × Nat :=
  (Nat.pow 10 grid.toNat * Nat.pow 2 (-interval.exponent).toNat,
    Nat.pow 10 (-grid).toNat * Nat.pow 2 interval.exponent.toNat)

/-- Whether `point * 10 ^ grid` lies in the interval. -/
def contains (interval : Interval) (grid : Int) (point : Nat) : Bool :=
  let (perPoint, perQuarter) := interval.factors grid
  let place := point * perPoint
  let low := interval.low * perQuarter
  let high := interval.high * perQuarter
  if interval.closed then low ≤ place && place ≤ high else low < place && place < high

/-- The point of a grid that stands for the interval, if there is one. -/
def pointOn? (interval : Interval) (grid : Int) : Option Nat :=
  let (perPoint, perQuarter) := interval.factors grid
  let centre := interval.centre * perQuarter
  let below := centre / perPoint
  match interval.contains grid below, interval.contains grid (below + 1) with
  | true, true =>
      if 2 * (centre - below * perPoint) < perPoint then some below else some (below + 1)
  | true, false => some below
  | false, true => some (below + 1)
  | false, false => none

def coarsest (interval : Interval) : Nat → Int → Nat × Int
  | 0, grid => (0, grid)
  | steps + 1, grid =>
      match interval.pointOn? grid with
      | some point => (point, grid)
      | none => interval.coarsest steps (grid - 1)

end Interval

/-- How many grids there are from above the largest double to below the smallest one. -/
def grids : Nat := 700

/-- The digits and the decimal exponent of the shortest form of a double above zero. -/
def shortest (mantissa : Nat) (exponent : Int) : Nat × Int :=
  (Interval.ofDouble mantissa exponent).coarsest grids 310

/-- The number `digits * 10 ^ exponent` with a point only where it is needed. -/
def positional (digits : Nat) (exponent : Int) : String :=
  let shown := Nat.toDigits 10 digits
  let behind := (-exponent).toNat
  String.ofList <|
    if 0 ≤ exponent then shown ++ List.replicate exponent.toNat '0'
    else if behind < shown.length then
      shown.take (shown.length - behind) ++ '.' :: shown.drop (shown.length - behind)
    else '0' :: '.' :: List.replicate (behind - shown.length) '0' ++ shown

def shortestText (value : Float) : String :=
  match Binary64.ofFloat value with
  | .nan => "NaN"
  | .infinite negative => (if negative then "-" else "") ++ "inf"
  | .finite negative mantissa exponent =>
      let (digits, grid) := if mantissa = 0 then (0, 0) else shortest mantissa exponent
      (if negative then "-" else "") ++ positional digits grid

end HeapSampler.Number
