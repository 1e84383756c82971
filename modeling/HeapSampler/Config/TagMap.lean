/-!
# Tags in order

A tag map holds at most one value per key, and its entries ascend by key.
-/

namespace HeapSampler

def insertEntry (key value : String) : List (String × String) → List (String × String)
  | [] => [(key, value)]
  | (first, held) :: rest =>
      if key < first then (key, value) :: (first, held) :: rest
      else if key = first then (key, value) :: rest
      else (first, held) :: insertEntry key value rest

theorem mem_insertEntry {key value : String} {entries : List (String × String)}
    {entry : String × String} (member : entry ∈ insertEntry key value entries) :
    entry = (key, value) ∨ entry ∈ entries := by
  induction entries with
  | nil => simpa [insertEntry] using member
  | cons head rest ih =>
      obtain ⟨first, held⟩ := head
      simp only [insertEntry] at member
      split at member
      · simpa using member
      · split at member
        · rcases List.mem_cons.mp member with same | later
          · exact .inl same
          · exact .inr (.tail _ later)
        · rcases List.mem_cons.mp member with same | later
          · exact .inr (same ▸ .head _)
          · exact (ih later).imp_right (.tail _)

abbrev Ascending (entries : List (String × String)) : Prop :=
  entries.Pairwise fun first second => first.1 < second.1

theorem ascending_insertEntry {key value : String} {entries : List (String × String)}
    (ascending : Ascending entries) : Ascending (insertEntry key value entries) := by
  induction entries with
  | nil => simp [insertEntry, Ascending]
  | cons head rest ih =>
      obtain ⟨first, held⟩ := head
      obtain ⟨below, tail⟩ := List.pairwise_cons.mp ascending
      simp only [insertEntry]
      split
      · rename_i lower
        refine List.pairwise_cons.mpr ⟨fun entry member => ?_, ascending⟩
        rcases List.mem_cons.mp member with same | later
        · exact same ▸ lower
        · exact String.lt_trans lower (below entry later)
      · split
        · rename_i same
          exact List.pairwise_cons.mpr ⟨fun entry later => same ▸ below entry later, tail⟩
        · rename_i notLower notSame
          refine List.pairwise_cons.mpr ⟨fun entry member => ?_, ih tail⟩
          rcases mem_insertEntry member with same | old
          · subst same
            exact Decidable.byContradiction fun notBelow =>
              notSame (String.le_antisymm (String.not_lt.mp notBelow) (String.not_lt.mp notLower))
          · exact below entry old

structure TagMap where
  entries : List (String × String)
  ascending : Ascending entries
  deriving DecidableEq

namespace TagMap

def empty : TagMap := ⟨[], .nil⟩

def insert (tags : TagMap) (key value : String) : TagMap :=
  ⟨insertEntry key value tags.entries, ascending_insertEntry tags.ascending⟩

/-- The tags of a list; of several with one key the last one counts. -/
def ofList (pairs : List (String × String)) : TagMap :=
  pairs.foldl (fun tags (key, value) => tags.insert key value) empty

def hasEmptyKey (tags : TagMap) : Bool :=
  tags.entries.any fun (key, _) => key = ""

end TagMap

end HeapSampler
