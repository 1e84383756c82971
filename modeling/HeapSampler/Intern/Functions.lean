import HeapSampler.Intern.Strings

/-!
# Interned places in functions

A place is a function's name, a file and a line.  It is interned by the ids of its two strings, and
it holds one reference to each of them for as long as it is interned itself.
-/

namespace HeapSampler

/-- The id of an interned place; it is never zero. -/
structure LocationId where
  value : Nat
  deriving DecidableEq, Repr

namespace LocationId

def toPprof (id : LocationId) : UInt64 := UInt64.ofNat id.value

end LocationId

structure Place where
  name : StringId
  file : StringId
  line : UInt32
  deriving DecidableEq, Repr

structure NamedPlace where
  functionName : String
  fileName : String
  line : UInt32
  deriving DecidableEq, Repr

structure FunctionTable where
  set : InternSet Place := {}

namespace FunctionTable

def lookup? (table : FunctionTable) (id : LocationId) : Option Place :=
  (table.set.get? id.value).map (·.key)

/-- The id of a place given by its strings, if they and it are interned. -/
def find? (table : FunctionTable) (strings : StringTable) (place : NamedPlace) :
    Option LocationId := do
  let name ← strings.find? place.functionName
  let file ← strings.find? place.fileName
  (table.set.find? { name, file, line := place.line }).map (⟨·⟩)

def retain (table : FunctionTable) (id : LocationId) : Except InternError FunctionTable :=
  (table.set.retain id.value).map (⟨·⟩)

def resolve? (table : FunctionTable) (strings : StringTable) (id : LocationId) :
    Option NamedPlace := do
  let place ← table.lookup? id
  let functionName ← strings.lookup? place.name
  let fileName ← strings.lookup? place.file
  return { functionName, fileName, line := place.line }

def count? (table : FunctionTable) (id : LocationId) : Option Nat :=
  (table.set.get? id.value).map (·.count)

def size (table : FunctionTable) : Nat := table.set.size

def isEmpty (table : FunctionTable) : Bool := table.size = 0

def memoryUsage (table : FunctionTable) : Nat :=
  table.set.memoryUsage fun _ => 0

def describe (table : FunctionTable) : String :=
  Text.openRecord "FunctionTable" [("len", toString table.size)]

end FunctionTable

end HeapSampler
