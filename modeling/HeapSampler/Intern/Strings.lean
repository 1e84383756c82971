import HeapSampler.Intern.Set
import HeapSampler.Text.Layout

/-!
# Interned strings

The empty string always has id 0 and is not counted; every other string is interned on demand.
-/

namespace HeapSampler

structure StringId where
  value : Nat
  deriving DecidableEq, Repr

namespace StringId

def empty : StringId := ⟨0⟩

def isEmpty (id : StringId) : Bool := id = empty

end StringId

/-- The strings other than the empty one. -/
structure StringTable where
  set : InternSet String := {}

namespace StringTable

def intern (table : StringTable) (text : String) : Except InternError (StringTable × StringId) :=
  if text = "" then .ok (table, .empty)
  else (table.set.intern text).map fun (set, id) => (⟨set⟩, ⟨id⟩)

def find? (table : StringTable) (text : String) : Option StringId :=
  if text = "" then some .empty else (table.set.find? text).map (⟨·⟩)

def retain (table : StringTable) (id : StringId) : Except InternError StringTable :=
  if id = .empty then .ok table else (table.set.retain id.value).map (⟨·⟩)

def release (table : StringTable) (id : StringId) : Except InternError StringTable :=
  if id = .empty then .ok table else (table.set.release id.value).map fun (set, _) => ⟨set⟩

def lookup? (table : StringTable) (id : StringId) : Option String :=
  if id = .empty then some "" else (table.set.get? id.value).map (·.key)

def count? (table : StringTable) (id : StringId) : Option Nat :=
  (table.set.get? id.value).map (·.count)

/-- How many strings are interned, not counting the empty one. -/
def size (table : StringTable) : Nat := table.set.size

def isEmpty (table : StringTable) : Bool := table.size = 0

def memoryUsage (table : StringTable) : Nat :=
  table.set.memoryUsage String.utf8ByteSize

def describe (table : StringTable) : String :=
  Text.openRecord "StringTable" [("len", toString table.size)]

end StringTable

end HeapSampler
