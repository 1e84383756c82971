/-!
# The ids of keys

An index leads from a key to its id.  It is written when a key comes and when it goes, apart from
whatever else is kept about the key.
-/

namespace HeapSampler

/-- A map from keys to ids; the order of its entries means nothing. -/
structure Index (κ : Type) where
  entries : List (κ × Nat)
  distinct : (entries.map Prod.fst).Nodup

namespace Index

variable {κ : Type}

def empty : Index κ := ⟨[], List.Pairwise.nil⟩

@[simp]
theorem entries_empty : (empty : Index κ).entries = [] :=
  rfl

variable [DecidableEq κ]

def get? (index : Index κ) (key : κ) : Option Nat :=
  index.entries.lookup key

def erase (index : Index κ) (key : κ) : Index κ where
  entries := index.entries.filter fun entry => entry.1 ≠ key
  distinct := index.distinct.sublist (List.filter_sublist.map _)

/-- The key leads to the new id alone, whether it was there before or not. -/
def insert (index : Index κ) (key : κ) (id : Nat) : Index κ where
  entries := (key, id) :: (index.erase key).entries
  distinct := by
    refine List.nodup_cons.mpr ⟨fun member => ?_, (index.erase key).distinct⟩
    obtain ⟨entry, listed, same⟩ := List.mem_map.mp member
    exact of_decide_eq_true (List.mem_filter.mp listed).2 same

def size (index : Index κ) : Nat := index.entries.length

variable {index : Index κ} {key : κ} {id : Nat} {entry : κ × Nat}

theorem get?_eq_some_iff : index.get? key = some id ↔ (key, id) ∈ index.entries := by
  obtain ⟨entries, distinct⟩ := index
  simp only [get?]
  induction entries with
  | nil => simp
  | cons first rest ih =>
      obtain ⟨own, place⟩ := first
      have apart := List.nodup_cons.mp distinct
      rw [List.lookup_cons, List.mem_cons]
      by_cases same : key = own
      · subst same
        have unlisted : (key, id) ∉ rest :=
          fun listed => apart.1 (List.mem_map.mpr ⟨_, listed, rfl⟩)
        simp [unlisted, eq_comm]
      · have differs : (key == own) = false := beq_eq_false_iff_ne.mpr same
        simpa [differs, same] using ih apart.2

@[simp]
theorem mem_erase : entry ∈ (index.erase key).entries ↔ entry ∈ index.entries ∧ entry.1 ≠ key := by
  simp [erase]

@[simp]
theorem mem_insert : entry ∈ (index.insert key id).entries ↔
    entry = (key, id) ∨ entry ∈ index.entries ∧ entry.1 ≠ key := by
  simp [insert]

theorem get?_erase (index : Index κ) (key : κ) : (index.erase key).get? key = none := by
  rw [Option.eq_none_iff_forall_ne_some]
  intro id found
  exact (mem_erase.mp (get?_eq_some_iff.mp found)).2 rfl

end Index

end HeapSampler
