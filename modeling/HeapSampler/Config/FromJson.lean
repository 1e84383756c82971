import HeapSampler.Config.Settings
import HeapSampler.Json.Parser
import HeapSampler.Json.Value

/-!
# Settings from JSON

Settings are an object, whose unknown members are ignored, or an array of the values in order.
What is not given has its default; an object may give each setting once.
-/

namespace HeapSampler

inductive Setting where
  | sampleRate
  | maxSamples
  | globalTags
  | compression
  | maxProfileBytes
  deriving DecidableEq, Repr

namespace Setting

def all : List Setting := [sampleRate, maxSamples, globalTags, compression, maxProfileBytes]

def name : Setting → String
  | sampleRate => "sample_rate"
  | maxSamples => "max_samples"
  | globalTags => "global_tags"
  | compression => "compression"
  | maxProfileBytes => "max_profile_bytes"

def ofName? (text : String) : Option Setting :=
  all.find? fun setting => setting.name = text

end Setting

namespace Json

def text? : Json → Option String
  | string units => (JsonUnit.text? units).map String.ofList
  | _ => none

def float? : Json → Option Float
  | number written => written.float?
  | _ => none

def natural? : Json → Option Nat
  | number written => written.natural?
  | _ => none

def tag? (member : List JsonUnit × Json) : Option (String × String) := do
  let key ← JsonUnit.text? member.1
  let value ← member.2.text?
  return (String.ofList key, value)

def tags? : Json → Option TagMap
  | object members => (members.mapM tag?).map TagMap.ofList
  | _ => none

/-- A compression by name, or as the one member of an object, with no value. -/
def compression? : Json → Option Compression
  | string units => (JsonUnit.text? units).bind fun name => Compression.ofText? (String.ofList name)
  | object [(name, null)] =>
      (JsonUnit.text? name).bind fun name => Compression.ofText? (String.ofList name)
  | _ => none

end Json

namespace Settings

def set? (settings : Settings) (value : Json) : Setting → Option Settings
  | .sampleRate => value.float?.map fun rate => { settings with sampleRate := rate }
  | .maxSamples => value.natural?.map fun count => { settings with maxSamples := count }
  | .globalTags => value.tags?.map fun tags => { settings with globalTags := tags }
  | .compression => value.compression?.map fun choice => { settings with compression := choice }
  | .maxProfileBytes => value.natural?.map fun count => { settings with maxProfileBytes := count }

/-- Takes in the members of an object; `given` are the settings that they may not repeat. -/
def ofMembers? (settings : Settings) (given : List Setting) :
    List (List JsonUnit × Json) → Option Settings
  | [] => some settings
  | (name, value) :: rest => do
      let name ← JsonUnit.text? name
      match Setting.ofName? (String.ofList name) with
      | none => settings.ofMembers? given rest
      | some setting =>
          if setting ∈ given then none
          else
            let settings ← settings.set? value setting
            settings.ofMembers? (setting :: given) rest

def ofJson? : Json → Option Settings
  | .object members => ofMembers? {} [] members
  | .array items =>
      if Setting.all.length < items.length then none
      else
        (Setting.all.zip items).foldlM (fun settings (setting, value) =>
          settings.set? value setting)
          {}
  | _ => none

def parse? (text : String) : Option Settings :=
  (Json.parse? text.toList).bind ofJson?

end Settings

end HeapSampler
