import Mathlib
import HeapSampler.Collector.Flush
import HeapSampler.Collector.Allocation
import HeapSampler.Proofs.Intern.Balance

/-!
# The references of a sample

A sample holds one reference to each string of its tags and to each of its places.  They are taken
when its tags and its places are interned and given back, all of them, when it is destroyed.
-/

namespace HeapSampler

def Tag.texts (tag : Tag) : List StringId := [tag.key, tag.value]

def Sample.texts (sample : Sample) : List StringId := sample.tags.flatMap Tag.texts

namespace Tables

variable {tables after : Tables} {texts : List StringId} {places : List LocationId}

def tag? (tables : Tables) (tag : Tag) : Option (String × String) := do
  let key ← tables.strings.lookup? tag.key
  let value ← tables.strings.lookup? tag.value
  return (key, value)

def place? (tables : Tables) (id : LocationId) : Option NamedPlace :=
  tables.functions.resolve? tables.strings id

theorem tag?_eq_some_iff {tag : Tag} {pair : String × String} :
    tables.tag? tag = some pair ↔ tables.strings.lookup? tag.key = some pair.1 ∧
      tables.strings.lookup? tag.value = some pair.2 := by
  simp only [tag?, Option.bind_eq_bind, Option.bind_eq_some_iff, Option.pure_def,
    Option.some.injEq]
  constructor
  · rintro ⟨key, key_found, value, value_found, rfl⟩
    exact ⟨key_found, value_found⟩
  · rintro ⟨key_found, value_found⟩
    exact ⟨_, key_found, _, value_found, rfl⟩

theorem Extends.tag?_keeps (extends_ : tables.Extends after) {tag : Tag} {pair : String × String}
    (found : tables.tag? tag = some pair) : after.tag? tag = some pair := by
  rw [tag?_eq_some_iff] at found ⊢
  exact found.imp extends_.lookup?_keeps extends_.lookup?_keeps

namespace Keeps

theorem refl (tables : Tables) (texts : List StringId) (places : List LocationId) :
    tables.Keeps tables texts places := ⟨fun _ _ => rfl, fun _ _ => rfl⟩

theorem trans {first second third : Tables} (one : first.Keeps second texts places)
    (two : second.Keeps third texts places) : first.Keeps third texts places where
  lookup?_eq id member := (two.lookup?_eq id member).trans (one.lookup?_eq id member)
  resolve?_eq id member := (two.resolve?_eq id member).trans (one.resolve?_eq id member)

theorem mono {before : Tables} {texts' : List StringId} {places' : List LocationId}
    (keeps : before.Keeps after texts' places') (fewer_texts : texts ⊆ texts')
    (fewer_places : places ⊆ places') : before.Keeps after texts places where
  lookup?_eq id member := keeps.lookup?_eq id (fewer_texts member)
  resolve?_eq id member := keeps.resolve?_eq id (fewer_places member)

theorem tag?_eq {before : Tables} (keeps : before.Keeps after texts places) {tag : Tag}
    (listed : tag.texts ⊆ texts) : after.tag? tag = before.tag? tag := by
  have key := keeps.lookup?_eq tag.key (listed (by simp [Tag.texts]))
  have value := keeps.lookup?_eq tag.value (listed (by simp [Tag.texts]))
  simp [tag?, key, value]

end Keeps

/-! ## Taking references -/

/-- A tag is interned by its key, then by its value. -/
theorem steps_of_internTag {tag : String × String} {id : Tag}
    (interned : tables.internTag tag = .ok (after, id)) :
    ∃ keyed valued, tables.strings.intern tag.1 = .ok (keyed, id.key) ∧
      keyed.intern tag.2 = .ok (valued, id.value) ∧ after = { tables with strings := valued } := by
  simp only [internTag, bind, Except.bind, pure, Except.pure] at interned
  split at interned
  · cases interned
  · rename_i keyed key_interned
    split at interned
    · cases interned
    · rename_i valued value_interned
      cases interned
      exact ⟨keyed.1, valued.1, key_interned, value_interned, rfl⟩

theorem steps_of_internTags {tag : String × String} {rest : List (String × String)}
    {ids : List Tag} (interned : tables.internTags (tag :: rest) = .ok (after, ids)) :
    ∃ middle id others, tables.internTag tag = .ok (middle, id) ∧
      middle.internTags rest = .ok (after, others) ∧ ids = id :: others := by
  simp only [internTags, bind, Except.bind, pure, Except.pure] at interned
  split at interned
  · cases interned
  · rename_i first first_interned
    split at interned
    · cases interned
    · rename_i others others_interned
      cases interned
      exact ⟨first.1, first.2, others.2, first_interned, others_interned, rfl⟩

theorem Balanced.intern_tag (balanced : tables.Balanced texts places) {tag : String × String}
    {id : Tag} (interned : tables.internTag tag = .ok (after, id)) :
    after.Balanced (id.texts ++ texts) places ∧ tables.Extends after ∧
      after.tag? id = some tag := by
  obtain ⟨keyed, valued, key_interned, value_interned, rfl⟩ := steps_of_internTag interned
  obtain ⟨key_balanced, key_more, key_found⟩ := balanced.intern_text key_interned
  obtain ⟨both_balanced, value_more, value_found⟩ := key_balanced.intern_text value_interned
  refine ⟨both_balanced.congr (.swap _ _ _) (.refl _), key_more.trans value_more, ?_⟩
  simp [tag?, value_more.lookup?_keeps key_found, value_found]

/-- Interning tags takes a reference to each of their strings and leaves all others alone. -/
theorem Balanced.intern_tags (balanced : tables.Balanced texts places)
    {tags : List (String × String)} {ids : List Tag}
    (interned : tables.internTags tags = .ok (after, ids)) :
    after.Balanced (ids.flatMap Tag.texts ++ texts) places ∧ tables.Extends after ∧
      ids.map after.tag? = tags.map some := by
  induction tags generalizing tables texts ids with
  | nil =>
      cases interned
      exact ⟨balanced, .refl _, rfl⟩
  | cons tag rest ih =>
      obtain ⟨middle, id, others, first_interned, others_interned, rfl⟩ :=
        steps_of_internTags interned
      obtain ⟨first_balanced, first_more, first_found⟩ := balanced.intern_tag first_interned
      obtain ⟨all_balanced, more, found⟩ := ih first_balanced others_interned
      refine ⟨all_balanced.congr ?_ (.refl _), first_more.trans more, ?_⟩
      · rw [List.flatMap_cons, ← List.append_assoc]
        exact List.perm_append_comm.append_right texts
      · rw [List.map_cons, List.map_cons, more.tag?_keeps first_found, found]

/-- Interning places takes a reference to each of them; a nameless function gets a name. -/
theorem Balanced.intern_places (balanced : tables.Balanced texts places)
    {named : List NamedPlace} {ids : List LocationId}
    (interned : tables.internPlaces named = .ok (after, ids)) :
    after.Balanced texts (ids ++ places) ∧ tables.Extends after ∧
      ids.map after.place? = named.map fun place => some place.withName := by
  induction named generalizing tables places ids with
  | nil =>
      cases interned
      exact ⟨balanced, .refl _, rfl⟩
  | cons place rest ih =>
      unfold internPlaces at interned
      split at interned
      · cases interned
      · rename_i middle id first_interned
        cases others_interned : middle.internPlaces rest with
        | error cause => simp [others_interned, Except.map] at interned
        | ok others =>
            simp only [others_interned, Except.map, Except.ok.injEq, Prod.mk.injEq] at interned
            obtain ⟨rfl, rfl⟩ := interned
            obtain ⟨first_balanced, first_more, first_found⟩ := balanced.intern_place first_interned
            obtain ⟨all_balanced, more, found⟩ := ih first_balanced others_interned
            refine ⟨all_balanced.congr (.refl _) List.perm_middle, first_more.trans more, ?_⟩
            rw [List.map_cons, List.map_cons, found]
            exact congrArg (· :: _) (more.resolve?_keeps first_found)

/-! ## Giving references back -/

theorem Balanced.release_string {id : StringId} (balanced : tables.Balanced (id :: texts) places) :
    ∃ after, Inventory.releaseString tables id = .ok after ∧ after.Balanced texts places ∧
      tables.Keeps after texts places := by
  obtain ⟨strings, released, balanced', kept⟩ := balanced.release_text
  refine ⟨{ tables with strings }, by simp [Inventory.releaseString, released], balanced',
    fun other member => kept other (List.mem_append_left _ member), fun other _ => ?_⟩
  exact resolve?_congr rfl fun text member => kept text (List.mem_append_right _ member)

theorem Balanced.release_tag {tag : Tag} (balanced : tables.Balanced (tag.texts ++ texts) places) :
    ∃ after, Inventory.releaseTag tables tag = .ok after ∧ after.Balanced texts places ∧
      tables.Keeps after texts places := by
  obtain ⟨middle, key_released, key_balanced, key_kept⟩ := balanced.release_string
  obtain ⟨after, value_released, value_balanced, value_kept⟩ := key_balanced.release_string
  refine ⟨after, ?_, value_balanced, (key_kept.mono ?_ (.refl _)).trans value_kept⟩
  · simp only [Inventory.releaseTag, key_released, bind, Except.bind]
    exact value_released
  · exact List.subset_cons_self _ _

theorem Balanced.release_tags {tags : List Tag}
    (balanced : tables.Balanced (tags.flatMap Tag.texts ++ texts) places) :
    ∃ after, tags.foldlM Inventory.releaseTag tables = .ok after ∧ after.Balanced texts places ∧
      tables.Keeps after texts places := by
  induction tags generalizing tables with
  | nil => exact ⟨tables, rfl, balanced, .refl _ _ _⟩
  | cons tag rest ih =>
      rw [List.flatMap_cons, List.append_assoc] at balanced
      obtain ⟨middle, released, balanced', kept⟩ := balanced.release_tag
      obtain ⟨after, others_released, all_balanced, others_kept⟩ := ih balanced'
      refine ⟨after, ?_, all_balanced, (kept.mono ?_ (.refl _)).trans others_kept⟩
      · simp only [List.foldlM_cons, released, bind, Except.bind]
        exact others_released
      · exact List.subset_append_right _ _

theorem Balanced.release_location {id : LocationId}
    (balanced : tables.Balanced texts (id :: places)) :
    ∃ after, Inventory.releaseLocation tables id = .ok after ∧ after.Balanced texts places ∧
      tables.Keeps after texts places := by
  obtain ⟨after, released, balanced', kept⟩ := balanced.release_place
  exact ⟨after, by simp [Inventory.releaseLocation, released], balanced', kept⟩

theorem Balanced.release_locations {ids : List LocationId}
    (balanced : tables.Balanced texts (ids ++ places)) :
    ∃ after, ids.foldlM Inventory.releaseLocation tables = .ok after ∧
      after.Balanced texts places ∧ tables.Keeps after texts places := by
  induction ids generalizing tables with
  | nil => exact ⟨tables, rfl, balanced, .refl _ _ _⟩
  | cons id rest ih =>
      obtain ⟨middle, released, balanced', kept⟩ := balanced.release_location
      obtain ⟨after, others_released, all_balanced, others_kept⟩ := ih balanced'
      refine ⟨after, ?_, all_balanced, (kept.mono (.refl _) ?_).trans others_kept⟩
      · simp only [List.foldlM_cons, released, bind, Except.bind]
        exact others_released
      · exact List.subset_append_right _ _

/-- A sample's references can all be given back, and what the others stand for does not change. -/
theorem Balanced.release_references {sample : Sample}
    (balanced : tables.Balanced (sample.texts ++ texts) (sample.locations ++ places)) :
    ∃ after, Inventory.releaseReferences tables sample = .ok after ∧
      after.Balanced texts places ∧ tables.Keeps after texts places := by
  obtain ⟨middle, places_released, places_balanced, places_kept⟩ := balanced.release_locations
  obtain ⟨after, tags_released, tags_balanced, tags_kept⟩ := places_balanced.release_tags
  refine ⟨after, ?_, tags_balanced, (places_kept.mono ?_ (.refl _)).trans tags_kept⟩
  · simp only [Inventory.releaseReferences, places_released, bind, Except.bind]
    exact tags_released
  · exact List.subset_append_right _ _

end Tables

end HeapSampler
