import Mathlib
import HeapSampler.Collector.Drive
import HeapSampler.Proofs.Collector.Scene
import HeapSampler.Proofs.Collector.Stretch
import HeapSampler.Proofs.Export.Resolve
import HeapSampler.Proofs.Store.Preserves

/-!
# A collector mirrors its scene

Behind every live object of a scene there is a sample with its tags and either its backtrace or the
places of it, and there is no other live sample.  Calls that are not disturbed by the host keep it
so.
-/

namespace HeapSampler

variable {host : Host} {before after inventory : Inventory} {object : LiveObject} {sample : Sample}
  {entry : Identity × Handle} {tried : Bool}

def Tagged (tables : Tables) (object : LiveObject) (sample : Sample) : Prop :=
  ∃ pairs : List (String × String), pairs.Perm object.tags.entries ∧
    sample.tags.map tables.tag? = pairs.map some

/-- A sample has the places of an object's backtrace, each with a name. -/
def Placed (host : Host) (tables : Tables) (object : LiveObject) (sample : Sample) : Prop :=
  sample.isSymbolized = true ∧
    ∃ places : List NamedPlace, host.symbolize object.backtrace = .ok places ∧
    sample.locations.map tables.place? = places.map fun place => some place.withName

/-- A sample has the backtrace of an object; if it has been `tried`, it cannot be symbolized. -/
def Captured (host : Host) (tried : Bool) (object : LiveObject) (sample : Sample) : Prop :=
  sample.isSymbolized = false ∧ sample.backtrace = some object.backtrace ∧
    (tried = true → ∃ cause, host.symbolize object.backtrace = .error cause)

def Stored (host : Host) (inventory : Inventory) (tried : Bool) (object : LiveObject)
    (entry : Identity × Handle) : Prop :=
  entry.1 = object.identity ∧ ∃ sample, inventory.store.sample? entry.2 = some sample ∧
    Tagged inventory.tables object sample ∧
    (Captured host tried object sample ∨ Placed host inventory.tables object sample)

/-- Entries lead to the samples of objects, if not in the same order. -/
def Mirrors (host : Host) (inventory : Inventory) (entries : List (Identity × Handle))
    (live : List LiveObject) : Prop :=
  ∃ objects : List LiveObject, objects.Perm live ∧
    List.Forall₂ (Stored host inventory false) objects entries

/-! ## Samples that stay what they are -/

theorem Tagged.mono {tables later : Tables} (tagged : Tagged tables object sample)
    (extends_ : tables.Extends later) : Tagged later object sample := by
  obtain ⟨pairs, same, found⟩ := tagged
  exact ⟨pairs, same, map_eq_of_keeps (fun _ _ _ stands => extends_.tag?_keeps stands) found⟩

theorem Stored.mono (stored : Stored host before tried object entry)
    (preserves : before.Preserves after entry.2) : Stored host after tried object entry := by
  obtain ⟨named, sample, found, ⟨pairs, same, tagged⟩, stage⟩ := stored
  obtain ⟨old, new, old_found, new_found, keeps⟩ := preserves
  cases found.symm.trans old_found
  refine ⟨named, new, new_found, ⟨pairs, same, ?_⟩, stage.imp ?_ ?_⟩
  · rw [keeps.tags_eq]
    exact map_eq_of_keeps keeps.tag?_keeps tagged
  · rintro ⟨unsymbolized, present, failed⟩
    exact ⟨keeps.symbolized_eq.trans unsymbolized, keeps.backtrace_eq.trans present, failed⟩
  · rintro ⟨symbolized, places, answer, placed⟩
    refine ⟨keeps.symbolized_eq.trans symbolized, places, answer, ?_⟩
    rw [keeps.locations_eq]
    have names : sample.locations.map before.tables.place? =
        (places.map NamedPlace.withName).map some := by
      rw [placed, List.map_map]
      rfl
    rw [map_eq_of_keeps keeps.place?_keeps names, List.map_map]
    rfl

theorem Stored.untried (stored : Stored host inventory tried object entry) :
    Stored host inventory false object entry := by
  obtain ⟨named, sample, found, tagged, stage⟩ := stored
  refine ⟨named, sample, found, tagged, stage.imp_left ?_⟩
  rintro ⟨unsymbolized, present, -⟩
  exact ⟨unsymbolized, present, fun impossible => absurd impossible Bool.false_ne_true⟩

/-! ## Entries and objects -/

namespace Mirrors

variable {entries : List (Identity × Handle)} {live : List LiveObject}

theorem identities_perm (mirrors : Mirrors host inventory entries live) :
    (entries.map Prod.fst).Perm (live.map LiveObject.identity) := by
  obtain ⟨objects, same, stored⟩ := mirrors
  have names : entries.map Prod.fst = objects.map LiveObject.identity := by
    rw [← List.forall₂_eq_eq_eq, List.forall₂_map_left_iff, List.forall₂_map_right_iff]
    exact stored.flip.imp fun _ _ each => each.1
  rw [names]
  exact same.map _

theorem length_eq (mirrors : Mirrors host inventory entries live) :
    entries.length = live.length := by
  simpa using mirrors.identities_perm.length_eq

theorem mono (mirrors : Mirrors host before entries live)
    (preserves : ∀ entry ∈ entries, before.Preserves after entry.2) :
    Mirrors host after entries live := by
  obtain ⟨objects, same, stored⟩ := mirrors
  exact ⟨objects, same, forall₂_imp_mem (fun entry member object each =>
    each.mono (preserves entry member)) stored⟩

/-- Entries and objects are struck by their identities. -/
theorem strike (mirrors : Mirrors host inventory entries live) (kept : Identity → Bool) :
    Mirrors host inventory (entries.filter fun entry => kept entry.1)
      (live.filter fun object => kept object.identity) := by
  obtain ⟨objects, same, stored⟩ := mirrors
  exact ⟨objects.filter fun object => kept object.identity, same.filter _,
    List.rel_filter (fun object entry each => by simp only [each.1]) stored⟩

theorem append (mirrors : Mirrors host inventory entries live)
    (new : Stored host inventory false object entry) :
    Mirrors host inventory (entries ++ [entry]) (live ++ [object]) := by
  obtain ⟨objects, same, stored⟩ := mirrors
  exact ⟨objects ++ [object], same.append_right _, List.rel_append stored (.cons new .nil)⟩

theorem shuffle (mirrors : Mirrors host inventory entries live)
    {reordered : List (Identity × Handle)} (same : entries.Perm reordered) :
    Mirrors host inventory reordered live := by
  obtain ⟨objects, objects_same, stored⟩ := mirrors
  obtain ⟨others, others_same, others_stored⟩ :
      Relation.Comp List.Perm (List.Forall₂ _) objects reordered := by
    rw [← List.forall₂_comp_perm_eq_perm_comp_forall₂]
    exact ⟨_, stored, same⟩
  exact ⟨others, others_same.symm.trans objects_same, others_stored⟩

/-- The object behind an entry is the one with its identity. -/
theorem exists_object (mirrors : Mirrors host inventory entries live)
    (distinct : (entries.map Prod.fst).Nodup) (listed : entry ∈ entries) :
    ∃ object, Stored host inventory false object entry ∧
      live.find? (fun object => object.identity = entry.1) = some object := by
  have live_distinct := mirrors.identities_perm.nodup_iff.mp distinct
  obtain ⟨objects, same, stored⟩ := mirrors
  obtain ⟨object, object_listed, each⟩ := exists_left stored listed
  have member := same.mem_iff.mp object_listed
  obtain ⟨other, found, other_listed, named⟩ :=
    exists_find? (fun object => object.identity = entry.1) member (decide_eq_true each.1.symm)
  have equal : other = object := List.inj_on_of_nodup_map live_distinct other_listed member
    ((of_decide_eq_true named).trans each.1)
  exact ⟨object, each, equal ▸ found⟩

end Mirrors

end HeapSampler
