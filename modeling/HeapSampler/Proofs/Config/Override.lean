import Mathlib
import HeapSampler.Proofs.Lists
import HeapSampler.Proofs.Config.Overlay
import HeapSampler.Proofs.Text.ByteOrder

/-!
# Tags that override others

A tag map overlaid with a list of tags, whatever keys are repeated in the list, is again a list with
one tag for each key.  The keys of the map come first, in the order of their bytes, and the other
keys follow in the order in which they first appear.  The value of a key is the one that the list
gives it last, or that of the map if the list gives it none.
-/

namespace HeapSampler

def tagKeys (tags : List (String × String)) : List String := tags.map Prod.fst

def lastValue? (tags : List (String × String)) (key : String) : Option String :=
  tags.reverse.lookup key

/-- What a tag map becomes when the tags of a list are set in it one after another. -/
structure TagMap.Overridden (map : TagMap) (tags merged : List (String × String)) : Prop where
  distinct : (tagKeys merged).Nodup
  /-- The keys of the map in the order of their bytes, then the new ones as they first appear. -/
  keys_eq : tagKeys merged = tagKeys map.entries ++
    (tagKeys tags).eraseDups.filter fun key => key ∉ tagKeys map.entries
  ascending : (tagKeys map.entries).Pairwise fun first second =>
    Text.bytes first < Text.bytes second
  /-- The last value in the list counts, and only without one that of the map. -/
  value_eq : ∀ tag ∈ merged,
    some tag.2 = (lastValue? tags tag.1).or (map.entries.lookup tag.1)

/-! ## One tag -/

theorem lastValue?_concat (tags : List (String × String)) (tag : String × String) (key : String) :
    lastValue? (tags ++ [tag]) key = if key = tag.1 then some tag.2 else lastValue? tags key := by
  rw [lastValue?, List.reverse_append, List.reverse_singleton, List.singleton_append,
    List.lookup_cons]
  by_cases same : key = tag.1
  · rw [if_pos same, same, beq_self_eq_true]
  · rw [if_neg same, beq_eq_false_iff_ne.mpr same]
    rfl

theorem tagKeys_setTag (key value : String) (tags : List (String × String)) :
    tagKeys (setTag key value tags) =
      if key ∈ tagKeys tags then tagKeys tags else tagKeys tags ++ [key] := by
  induction tags with
  | nil => rfl
  | cons head rest ih =>
      obtain ⟨held, old⟩ := head
      rw [setTag]
      by_cases same : held = key
      · rw [if_pos same, if_pos (by simp [tagKeys, same])]
        simp [tagKeys, same]
      · have elsewhere : key ∈ tagKeys ((held, old) :: rest) ↔ key ∈ tagKeys rest := by
          simp [tagKeys, Ne.symm same]
        rw [if_neg same, show tagKeys ((held, old) :: setTag key value rest) =
          held :: tagKeys (setTag key value rest) from rfl, ih]
        by_cases present : key ∈ tagKeys rest
        · rw [if_pos present, if_pos (elsewhere.mpr present)]
          rfl
        · rw [if_neg present, if_neg (mt elsewhere.mp present)]
          rfl

theorem lookup_setTag (key value : String) (tags : List (String × String)) (other : String) :
    (setTag key value tags).lookup other =
      if other = key then some value else tags.lookup other := by
  induction tags with
  | nil =>
      rw [setTag, List.lookup_cons]
      by_cases same : other = key
      · rw [if_pos same, same, beq_self_eq_true]
      · rw [if_neg same, beq_eq_false_iff_ne.mpr same]
  | cons head rest ih =>
      obtain ⟨held, old⟩ := head
      rw [setTag]
      by_cases here : held = key
      · subst here
        rw [if_pos rfl, List.lookup_cons, List.lookup_cons]
        by_cases same : other = held
        · rw [if_pos same, same, beq_self_eq_true]
        · rw [if_neg same, beq_eq_false_iff_ne.mpr same]
      · rw [if_neg here, List.lookup_cons, List.lookup_cons, ih]
        by_cases first : other = held
        · subst first
          rw [beq_self_eq_true]
          exact (if_neg here).symm
        · rw [beq_eq_false_iff_ne.mpr first]

/-! ## One tag after another -/

theorem overlay_concat (tags others : List (String × String)) (tag : String × String) :
    overlay tags (others ++ [tag]) = setTag tag.1 tag.2 (overlay tags others) := by
  rw [overlay, List.foldl_append]
  rfl

theorem tagKeys_overlay (tags others : List (String × String)) :
    tagKeys (overlay tags others) =
      tagKeys tags ++ (tagKeys others).eraseDups.filter fun key => key ∉ tagKeys tags := by
  induction others using List.reverseRecOn with
  | nil => simp [overlay, tagKeys]
  | append_singleton others tag ih =>
      have present : tag.1 ∈ tagKeys (overlay tags others) ↔
          tag.1 ∈ tagKeys tags ∨ tag.1 ∈ tagKeys others := by
        rw [ih, List.mem_append, List.mem_filter, List.mem_eraseDups, decide_eq_true_eq]
        tauto
      rw [overlay_concat, tagKeys_setTag, show tagKeys (others ++ [tag]) = tagKeys others ++ [tag.1]
        from List.map_append, eraseDups_concat]
      by_cases repeated : tag.1 ∈ tagKeys others
      · rw [if_pos (present.mpr (.inr repeated)), if_pos repeated, ih]
      · rw [if_neg repeated, List.filter_append]
        by_cases held : tag.1 ∈ tagKeys tags
        · rw [if_pos (present.mpr (.inl held)), ih, List.filter_cons_of_neg (by simp [held]),
            List.filter_nil, List.append_nil]
        · rw [if_neg (mt present.mp (not_or.mpr ⟨held, repeated⟩)), ih,
            List.filter_cons_of_pos (by simp [held]), List.filter_nil, List.append_assoc]

theorem lookup_overlay (tags others : List (String × String)) (key : String) :
    (overlay tags others).lookup key = (lastValue? others key).or (tags.lookup key) := by
  induction others using List.reverseRecOn with
  | nil => rfl
  | append_singleton others tag ih =>
      rw [overlay_concat, lookup_setTag, lastValue?_concat]
      by_cases same : key = tag.1
      · rw [if_pos same, if_pos same, Option.some_or]
      · rw [if_neg same, if_neg same, ih]

theorem lookup_of_mem {tags : List (String × String)} {tag : String × String}
    (distinct : (tagKeys tags).Nodup) (member : tag ∈ tags) : tags.lookup tag.1 = some tag.2 := by
  induction tags with
  | nil => exact absurd member List.not_mem_nil
  | cons head rest ih =>
      obtain ⟨absent, others⟩ := List.nodup_cons.mp distinct
      obtain ⟨held, old⟩ := head
      rcases List.mem_cons.mp member with rfl | later
      · rw [List.lookup_cons, beq_self_eq_true]
      · have apart : tag.1 ≠ held := by
          intro same
          have listed : tag.1 ∈ tagKeys rest := List.mem_map_of_mem later
          exact absent (same ▸ listed)
        rw [List.lookup_cons, beq_eq_false_iff_ne.mpr apart]
        exact ih others later

/-- A tag map overlaid with a list is the map with the tags of the list set in it. -/
theorem TagMap.overridden_overlay (map : TagMap) (tags : List (String × String)) :
    map.Overridden tags (overlay map.entries tags) := by
  have distinct : (tagKeys (overlay map.entries tags)).Nodup :=
    ((overlay_perm tags (.refl map.entries)).map Prod.fst).nodup_iff.mpr (keys_nodup _)
  constructor
  · exact distinct
  · exact tagKeys_overlay map.entries tags
  · exact List.pairwise_map.mpr (map.ascending.imp (Text.bytes_lt_iff _ _).mpr)
  · intro tag member
    rw [← lookup_overlay]
    exact (lookup_of_mem distinct member).symm

end HeapSampler
