import Mathlib
import HeapSampler.Collector.Allocation

/-!
# Tags overlaid

A list of tags is overlaid in place and a tag map is kept in order.  Both replace the tag of a key
or add one, so they hold the same tags, if not in the same order.
-/

namespace HeapSampler

variable {tags entries : List (String × String)}

def withoutKey (key : String) (tags : List (String × String)) : List (String × String) :=
  tags.filter fun tag => tag.1 ≠ key

theorem withoutKey_of_absent {key : String} (absent : ∀ tag ∈ tags, tag.1 ≠ key) :
    withoutKey key tags = tags := by
  rw [withoutKey, List.filter_eq_self]
  intro tag member
  exact decide_eq_true (absent tag member)

theorem setTag_perm (distinct : (tags.map Prod.fst).Nodup) (key value : String) :
    (setTag key value tags).Perm ((key, value) :: withoutKey key tags) := by
  induction tags with
  | nil => exact .refl _
  | cons head rest ih =>
      obtain ⟨held, old⟩ := head
      obtain ⟨apart, others⟩ := List.nodup_cons.mp distinct
      rw [setTag]
      by_cases same : held = key
      · subst same
        have absent (tag : String × String) (member : tag ∈ rest) : tag.1 ≠ held := by
          intro same
          have listed : tag.1 ∈ rest.map Prod.fst := List.mem_map_of_mem member
          exact apart (same ▸ listed)
        rw [if_pos rfl, withoutKey, List.filter_cons_of_neg (by simp)]
        exact .cons _ (.of_eq (withoutKey_of_absent absent).symm)
      · rw [if_neg same, withoutKey, List.filter_cons_of_pos (by simpa using same)]
        exact ((ih others).cons _).trans (.swap _ _ _)

theorem insertEntry_perm (ascending : Ascending entries) (key value : String) :
    (insertEntry key value entries).Perm ((key, value) :: withoutKey key entries) := by
  induction entries with
  | nil => exact .refl _
  | cons head rest ih =>
      obtain ⟨first, held⟩ := head
      obtain ⟨above, later⟩ := List.pairwise_cons.mp ascending
      rw [insertEntry]
      split
      · rename_i lower
        have absent (tag : String × String) (member : tag ∈ (first, held) :: rest) :
            tag.1 ≠ key := by
          rcases List.mem_cons.mp member with rfl | member
          · exact (ne_of_lt lower).symm
          · exact (ne_of_lt (String.lt_trans lower (above tag member))).symm
        exact .cons _ (.of_eq (withoutKey_of_absent absent).symm)
      · split
        · rename_i same
          subst same
          have absent (tag : String × String) (member : tag ∈ rest) : tag.1 ≠ key :=
            (ne_of_lt (above tag member)).symm
          rw [withoutKey, List.filter_cons_of_neg (by simp)]
          exact .cons _ (.of_eq (withoutKey_of_absent absent).symm)
        · rename_i apart
          rw [withoutKey, List.filter_cons_of_pos (by simpa using Ne.symm apart)]
          exact ((ih later).cons _).trans (.swap _ _ _)

/-- No key has two tags. -/
theorem TagMap.keys_nodup (tags : TagMap) : (tags.entries.map Prod.fst).Nodup :=
  List.pairwise_map.mpr (tags.ascending.imp ne_of_lt)

def TagMap.overlaid (tags : TagMap) (others : List (String × String)) : TagMap :=
  others.foldl (fun merged (key, value) => merged.insert key value) tags

theorem overlay_perm (others : List (String × String)) {map : TagMap}
    (same : tags.Perm map.entries) :
    (overlay tags others).Perm (map.overlaid others).entries := by
  induction others generalizing tags map with
  | nil => exact same
  | cons other rest ih =>
      obtain ⟨key, value⟩ := other
      have distinct : (tags.map Prod.fst).Nodup := (same.map Prod.fst).nodup_iff.mpr map.keys_nodup
      have set : (setTag key value tags).Perm (map.insert key value).entries :=
        (setTag_perm distinct key value).trans
          (((same.filter _).cons _).trans (insertEntry_perm map.ascending key value).symm)
      exact ih set

/-- Overlaying adds at most the other tags, and no others. -/
theorem mem_overlaid {map : TagMap} {others : List (String × String)} {tag : String × String}
    (member : tag ∈ (map.overlaid others).entries) : tag ∈ map.entries ∨ tag ∈ others := by
  induction others generalizing map with
  | nil => exact .inl member
  | cons other rest ih =>
      obtain ⟨key, value⟩ := other
      rcases ih member with before | later
      · rcases mem_insertEntry before with same | old
        · exact .inr (same ▸ List.mem_cons_self)
        · exact .inl old
      · exact .inr (List.mem_cons_of_mem _ later)

theorem length_overlaid_le (map : TagMap) (others : List (String × String)) :
    (map.overlaid others).entries.length ≤ map.entries.length + others.length := by
  induction others generalizing map with
  | nil => exact Nat.le_refl _
  | cons other rest ih =>
      obtain ⟨key, value⟩ := other
      have set : (map.insert key value).entries.length = _ :=
        (insertEntry_perm map.ascending key value).length_eq
      have fewer : (withoutKey key map.entries).length ≤ map.entries.length :=
        List.length_filter_le _ _
      have later : (map.overlaid ((key, value) :: rest)).entries.length ≤ _ :=
        ih (map.insert key value)
      rw [set] at later
      simp only [List.length_cons] at later ⊢
      omega

end HeapSampler
