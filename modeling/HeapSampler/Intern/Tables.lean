import HeapSampler.Intern.Functions

/-!
# Both tables together

Interning and releasing a place touches both tables, step by step.  A step that fails ends the call
with an error and leaves in place what the steps before it did, apart from what the call itself
takes back; so a call returns the tables in either case.
-/

namespace HeapSampler

structure Tables where
  strings : StringTable := {}
  functions : FunctionTable := {}

namespace Tables

/-- Gives back references to two strings, the first one first. -/
def releasePair (strings : StringTable) (first second : StringId) :
    StringTable × Except InternError Unit :=
  match strings.release first with
  | .error error => (strings, .error error)
  | .ok strings =>
      match strings.release second with
      | .error error => (strings, .error error)
      | .ok strings => (strings, .ok ())

/-- Interns a place that is not there; a failure gives back the strings interned for it. -/
def addPlace (tables : Tables) (place : NamedPlace) : Tables × Except InternError LocationId :=
  match tables.strings.intern place.functionName with
  | .error error => (tables, .error error)
  | .ok (strings, name) =>
      match strings.intern place.fileName with
      | .error error =>
          match strings.release name with
          | .ok strings => ({ tables with strings }, .error error)
          | .error second => ({ tables with strings }, .error second)
      | .ok (strings, file) =>
          match tables.functions.set.intern { name, file, line := place.line } with
          | .ok (set, id) => ({ strings, functions := ⟨set⟩ }, .ok ⟨id⟩)
          | .error error =>
              match releasePair strings name file with
              | (strings, .ok ()) => ({ tables with strings }, .error error)
              | (strings, .error second) => ({ tables with strings }, .error second)

def internPlace (tables : Tables) (place : NamedPlace) :
    Tables × Except InternError LocationId :=
  match tables.functions.find? tables.strings place with
  | some id =>
      match tables.functions.retain id with
      | .ok functions => ({ tables with functions }, .ok id)
      | .error error => (tables, .error error)
  | none => tables.addPlace place

/-- Takes a reference from a place; the last one takes the place's own references along. -/
def releasePlace (tables : Tables) (id : LocationId) : Tables × Except InternError Unit :=
  match tables.functions.set.release id.value with
  | .error error => (tables, .error error)
  | .ok (set, none) => ({ tables with functions := ⟨set⟩ }, .ok ())
  | .ok (set, some place) =>
      let (strings, result) := releasePair tables.strings place.name place.file
      ({ strings, functions := ⟨set⟩ }, result)

def memoryUsage (tables : Tables) : Nat :=
  tables.strings.memoryUsage + tables.functions.memoryUsage

def describe (tables : Tables) : String :=
  Text.record "InternTables"
    [("strings", tables.strings.describe), ("functions", tables.functions.describe)]

end Tables

end HeapSampler
