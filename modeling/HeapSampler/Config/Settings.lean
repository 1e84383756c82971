import HeapSampler.Config.Rate
import HeapSampler.Config.TagMap
import HeapSampler.Export.Options
import HeapSampler.Number.Shortest

/-!
# Settings

Settings can hold anything of the right type.  Only valid ones govern a collector; validation also
turns the rate into a threshold.
-/

namespace HeapSampler

structure Settings where
  /-- The fraction of allocations to sample. -/
  sampleRate : Float := 0.01
  /-- How many samples may be live at once. -/
  maxSamples : Nat := 50000
  /-- Tags of every sample; an allocation's own tags override them. -/
  globalTags : TagMap := .empty
  compression : Compression := .gzip
  /-- The most bytes an export may have once packed. -/
  maxProfileBytes : Nat := defaultMaxProfileBytes

namespace Settings

/-- Equality as the parts compare: a rate that is not a number equals nothing. -/
instance : BEq Settings where
  beq first second :=
    first.sampleRate == second.sampleRate && first.maxSamples == second.maxSamples &&
      first.globalTags == second.globalTags && first.compression == second.compression &&
      first.maxProfileBytes == second.maxProfileBytes

end Settings

inductive ConfigError where
  | sampleRateOutOfRange (rate : Float)
  | zeroMaxSamples
  | zeroMaxProfileBytes
  | emptyTagKey
  deriving Repr

def ConfigError.name : ConfigError → String
  | sampleRateOutOfRange _ => "SampleRateOutOfRange"
  | zeroMaxSamples => "ZeroMaxSamples"
  | zeroMaxProfileBytes => "ZeroMaxProfileBytes"
  | emptyTagKey => "EmptyTagKey"

def ConfigError.message : ConfigError → String
  | sampleRateOutOfRange rate =>
      "sample_rate must be within [0, 1], got " ++ Number.shortestText rate
  | zeroMaxSamples => "max_samples must be greater than zero"
  | zeroMaxProfileBytes => "max_profile_bytes must be greater than zero"
  | emptyTagKey => "global tag keys must not be empty"

structure ValidSettings where
  rate : SampleRate
  settings : Settings

namespace ValidSettings

def withGlobalTags (valid : ValidSettings) (tags : TagMap) : ValidSettings :=
  { valid with settings := { valid.settings with globalTags := tags } }

end ValidSettings

/-- Checks settings; of several faults the first in this order is reported. -/
def Settings.validate (settings : Settings) : Except ConfigError ValidSettings :=
  match SampleRate.ofFraction? settings.sampleRate with
  | none => .error (.sampleRateOutOfRange settings.sampleRate)
  | some rate =>
      if settings.maxSamples = 0 then .error .zeroMaxSamples
      else if settings.maxProfileBytes = 0 then .error .zeroMaxProfileBytes
      else if settings.globalTags.hasEmptyKey then .error .emptyTagKey
      else .ok ⟨rate, settings⟩

end HeapSampler
