import HeapSampler.Config.Settings
import HeapSampler.Number.Reading
import HeapSampler.Text.Characters

/-!
# Settings from the environment

Two settings can be given from outside as bytes.  White space around a value does not count, and a
value that is not text or not a number of the right kind is as good as none.
-/

namespace HeapSampler.Environment

def text? (value : Option (List UInt8)) : Option (List Char) :=
  value.bind fun bytes =>
    (String.fromUTF8? ⟨bytes.toArray⟩).map fun text => Text.trimmed text.toList

def float? (value : Option (List UInt8)) : Option Float :=
  (text? value).bind Number.float?

def integer? (low high : Int) (value : Option (List UInt8)) : Option Int :=
  (text? value).bind (Number.integer? low high)

def maxCount : Nat := 18446744073709551615

/-- The settings with the rate and the bound on samples that are given from outside, if any. -/
def override (rate maxSamples : Option (List UInt8)) (settings : Settings) : Settings :=
  { settings with
    sampleRate := (float? rate).getD settings.sampleRate
    maxSamples := ((integer? 0 maxCount maxSamples).map Int.toNat).getD settings.maxSamples }

end HeapSampler.Environment
