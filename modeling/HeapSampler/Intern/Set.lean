import HeapSampler.Intern.Index
import HeapSampler.Intern.Slab

/-!
# Interned keys with counted references

An interned key has an id from 1 on and a count of the references to it.  Interning a key that is
there adds a reference; releasing the last one removes the key, and its id is free for another.
Keys are found through an index, which is written beside the cells.
-/

namespace HeapSampler

structure Interned (κ : Type) where
  key : κ
  count : Nat
  deriving DecidableEq, Repr

/-- Misuse of a table, or the end of its means. -/
inductive InternError where
  | unknownId (id : Nat)
  | refcountOverflow
  | idsExhausted
  deriving DecidableEq, Repr

def InternError.name : InternError → String
  | unknownId _ => "UnknownId"
  | refcountOverflow => "RefcountOverflow"
  | idsExhausted => "IdsExhausted"

def InternError.message : InternError → String
  | unknownId id => "id " ++ toString id ++ " is not interned"
  | refcountOverflow => "reference count overflow"
  | idsExhausted => "ran out of ids"

/-- Keys with their references, and the ids that they are found by. -/
structure InternSet (κ : Type) where
  slab : Slab (Interned κ) := {}
  index : Index κ := .empty

namespace InternSet

variable {κ : Type} [DecidableEq κ]

/-- The largest id and the largest count of references. -/
def maxWord : Nat := 4294967295

def get? (set : InternSet κ) : Nat → Option (Interned κ)
  | 0 => none
  | index + 1 => set.slab.get? index

def find? (set : InternSet κ) (key : κ) : Option Nat :=
  set.index.get? key

def retain (set : InternSet κ) (id : Nat) : Except InternError (InternSet κ) :=
  match set.get? id with
  | none => .error (.unknownId id)
  | some interned =>
      if interned.count < maxWord then
        .ok { set with slab := set.slab.put (id - 1) { interned with count := interned.count + 1 } }
      else .error .refcountOverflow

/-- Takes a reference from an id; also returns the key if it was the last one. -/
def release (set : InternSet κ) (id : Nat) : Except InternError (InternSet κ × Option κ) :=
  match set.get? id with
  | none => .error (.unknownId id)
  | some interned =>
      if 1 < interned.count then
        .ok ({ set with
          slab := set.slab.put (id - 1) { interned with count := interned.count - 1 } }, none)
      else
        .ok ({ slab := set.slab.erase (id - 1), index := set.index.erase interned.key },
          some interned.key)

def add (set : InternSet κ) (key : κ) : Except InternError (InternSet κ × Nat) :=
  if set.slab.next < maxWord then
    let id := set.slab.next + 1
    .ok ({ slab := set.slab.insert { key, count := 1 }, index := set.index.insert key id }, id)
  else .error .idsExhausted

def intern (set : InternSet κ) (key : κ) : Except InternError (InternSet κ × Nat) :=
  match set.find? key with
  | some id => (set.retain id).map (·, id)
  | none => set.add key

def size (set : InternSet κ) : Nat :=
  set.index.size

/-- What is interned, by ascending id. -/
def entries (set : InternSet κ) : List (Nat × Interned κ) :=
  set.slab.entries.map fun (index, interned) => (index + 1, interned)

/-- Roughly how many bytes the set takes, where `perKey` says what each key holds elsewhere. -/
def memoryUsage (set : InternSet κ) (perKey : κ → Nat) : Nat :=
  24 * set.slab.cells.size + 4 * set.slab.free.length + 20 * set.index.size +
    set.entries.foldl (fun bytes (_, interned) => bytes + perKey interned.key) 0

end InternSet

end HeapSampler
