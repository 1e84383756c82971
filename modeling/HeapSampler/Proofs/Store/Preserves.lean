import Mathlib
import HeapSampler.Proofs.Store.Events

/-!
# What stays of a sample

Between its allocation and its export a sample changes its identity and its size, and the tables
around it change all the time.  What it refers to stays and stands for what it stood for.
-/

namespace HeapSampler.Inventory

variable {before after inventory : Inventory} {leaving held : List Handle} {spare : List StringId}
  {handle : Handle}

/-- A sample keeps its backtrace, its places and its tags, and they keep their meaning. -/
structure Keeps (before after : Inventory) (old new : Sample) : Prop where
  backtrace_eq : new.backtrace = old.backtrace
  symbolized_eq : new.isSymbolized = old.isSymbolized
  tags_eq : new.tags = old.tags
  locations_eq : new.locations = old.locations
  tag?_keeps : ∀ tag ∈ old.tags, ∀ {pair : String × String},
    before.tables.tag? tag = some pair → after.tables.tag? tag = some pair
  place?_keeps : ∀ id ∈ old.locations, ∀ {place : NamedPlace},
    before.tables.place? id = some place → after.tables.place? id = some place

def Preserves (before after : Inventory) (handle : Handle) : Prop :=
  ∃ old new, before.store.sample? handle = some old ∧ after.store.sample? handle = some new ∧
    before.Keeps after old new

theorem references_subset {sample : Sample}
    (found : inventory.store.sample? handle = some sample) :
    sample.texts ⊆ inventory.texts ∧ sample.locations ⊆ inventory.places := by
  have member : sample ∈ inventory.store.arena.samples := Arena.mem_samples.mpr ⟨handle, found⟩
  exact ⟨fun _ listed => List.mem_flatMap.mpr ⟨sample, member, listed⟩,
    fun _ listed => List.mem_flatMap.mpr ⟨sample, member, listed⟩⟩

/-- The tags of a sample can be looked up. -/
theorem Balanced.exists_tag {sample : Sample} {tag : Tag}
    (balanced : inventory.Balanced leaving held spare)
    (found : inventory.store.sample? handle = some sample) (listed : tag ∈ sample.tags) :
    ∃ pair, inventory.tables.tag? tag = some pair := by
  have known (id : StringId) (member : id ∈ tag.texts) :
      ∃ text, inventory.tables.strings.lookup? id = some text := by
    have inside := (references_subset found).1 (List.mem_flatMap.mpr ⟨tag, listed, member⟩)
    exact balanced.tables.exists_text (List.mem_append_left _ (List.mem_append_right _ inside))
  obtain ⟨key, key_found⟩ := known tag.key (by simp [Tag.texts])
  obtain ⟨value, value_found⟩ := known tag.value (by simp [Tag.texts])
  exact ⟨(key, value), by simp [Tables.tag?, key_found, value_found]⟩

/-- The places of a sample can be looked up. -/
theorem Balanced.exists_place {sample : Sample} {id : LocationId}
    (balanced : inventory.Balanced leaving held spare)
    (found : inventory.store.sample? handle = some sample) (listed : id ∈ sample.locations) :
    ∃ place, inventory.tables.place? id = some place :=
  balanced.tables.exists_resolved ((references_subset found).2 listed)

/-- Events preserve every sample that still has an owner. -/
theorem Ages.preserves (balanced : after.Balanced leaving held spare)
    (aged : before.Ages after spare)
    (owned : handle ∈ after.store.live.map Prod.snd ++ (leaving ++ held)) :
    before.Preserves after handle := by
  obtain ⟨old, new, before_found, found, ages⟩ := balanced.exists_aged aged handle owned
  obtain ⟨texts, places⟩ := references_subset found
  refine ⟨old, new, before_found, found, ages.backtrace_eq, ages.symbolized_eq, ages.tags_eq,
    ages.locations_eq, fun tag member pair stands => ?_, fun id member place stands => ?_⟩
  · have listed : tag.texts ⊆ spare ++ after.texts := by
      intro text inside
      refine List.mem_append_right _ (texts (List.mem_flatMap.mpr ⟨tag, ?_, inside⟩))
      rwa [ages.tags_eq]
    rw [aged.keeps.tag?_eq listed]
    exact stands
  · rw [Tables.place?, aged.keeps.resolve?_eq id (places (by rwa [ages.locations_eq]))]
    exact stands

theorem Ages.preserves_live (balanced : after.Balanced leaving held spare)
    (aged : before.Ages after spare) :
    ∀ entry ∈ after.store.live, before.Preserves after entry.2 := by
  intro entry listed
  exact aged.preserves balanced (List.mem_append_left _ (List.mem_map_of_mem listed))

/-- A sample stays what it is as long as the tables keep what it refers to. -/
theorem preserves_of_keeps {sample : Sample} (found : before.store.sample? handle = some sample)
    (remains : after.store.sample? handle = some sample)
    (keeps : before.tables.Keeps after.tables before.texts before.places) :
    before.Preserves after handle := by
  obtain ⟨texts, places⟩ := references_subset found
  refine ⟨sample, sample, found, remains, rfl, rfl, rfl, rfl, fun tag member pair stands => ?_,
    fun id member place stands => ?_⟩
  · have listed : tag.texts ⊆ before.texts := fun text inside =>
      texts (List.mem_flatMap.mpr ⟨tag, member, inside⟩)
    rw [keeps.tag?_eq listed]
    exact stands
  · rw [Tables.place?, keeps.resolve?_eq id (places member)]
    exact stands

theorem preserves_of_extends {sample : Sample} (found : before.store.sample? handle = some sample)
    (remains : after.store.sample? handle = some sample)
    (extends_ : before.tables.Extends after.tables) : before.Preserves after handle :=
  ⟨sample, sample, found, remains, rfl, rfl, rfl, rfl,
    fun _ _ _ stands => extends_.tag?_keeps stands,
    fun _ _ _ stands => extends_.resolve?_keeps stands⟩

/-- The order of the live table does not matter. -/
theorem Balanced.shuffle (balanced : inventory.Balanced leaving held spare)
    {live : List (Identity × Handle)} (same : inventory.store.live.Perm live) :
    Balanced { inventory with store := { inventory.store with live } } leaving held spare :=
  { owners := balanced.owners.congr ((same.map _).append_right _)
    identities_nodup := (same.map _).nodup_iff.mp balanced.identities_nodup
    handles_nodup := ((same.map _).append_right _).nodup_iff.mp balanced.handles_nodup
    identity_eq := fun member => balanced.identity_eq (same.mem_iff.mpr member)
    released_iff := fun found =>
      (balanced.released_iff found).trans ((same.map _).append_right _).mem_iff.not
    nameless := balanced.nameless
    unplaced := balanced.unplaced
    tables := balanced.tables }

end HeapSampler.Inventory
