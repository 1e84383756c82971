import HeapSampler.Number.Binary64

/-!
# Sample rates

A rate is a threshold on 32-bit draws: an allocation is sampled when its draw lies below it.  The
two extreme thresholds mean never and always and look at no draw.
-/

namespace HeapSampler

structure SampleRate where
  threshold : UInt32
  deriving DecidableEq, Repr

namespace SampleRate

def never : SampleRate := ⟨0⟩

def always : SampleRate := ⟨0xFFFFFFFF⟩

/-- The highest threshold as a double. -/
def scale : Float := 4294967295

/-- The natural number nearest to a double that is not negative, halves upwards. -/
def rounded (value : Float) : Nat :=
  match Number.Binary64.ofFloat value with
  | .finite _ mantissa exponent =>
      let (above, below) := Number.scaled mantissa 1 (-exponent)
      Number.roundHalfUp above below
  | _ => 0

/-- The rate for a fraction between zero and one; there is none for anything else. -/
def ofFraction? (fraction : Float) : Option SampleRate :=
  if 0 ≤ fraction ∧ fraction ≤ 1 then some ⟨UInt32.ofNat (rounded (fraction * scale))⟩ else none

def fraction (rate : SampleRate) : Float :=
  rate.threshold.toFloat / scale

def needsDraw (rate : SampleRate) : Bool :=
  rate ≠ never && rate ≠ always

def admits (rate : SampleRate) (draw : UInt32) : Bool :=
  if rate = never then false
  else if rate = always then true
  else draw < rate.threshold

@[simp] theorem admits_never (draw : UInt32) : never.admits draw = false := rfl

@[simp] theorem admits_always (draw : UInt32) : always.admits draw = true := rfl

end SampleRate

end HeapSampler
