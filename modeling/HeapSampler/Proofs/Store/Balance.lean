import Mathlib
import HeapSampler.Proofs.Store.Owners
import HeapSampler.Proofs.Store.References

/-!
# Balanced inventories

An inventory is balanced against three lists.  The handles in `held` are owned by snapshots, one
owner for each time they are listed; those in `leaving` have been struck from the live table by a
call that still has to release them; and a call holds the references in `spare`.  Every owner is
then accounted for, a sample is live or released and never both, and the tables hold the references
of the samples and the spare ones and nothing else.
-/

namespace HeapSampler

/-- What events do to a sample: it may be moved or released, and stays released then. -/
structure Sample.Ages (old new : Sample) : Prop where
  backtrace_eq : new.backtrace = old.backtrace
  locations_eq : new.locations = old.locations
  tags_eq : new.tags = old.tags
  size_eq : new.size = old.size
  symbolized_eq : new.isSymbolized = old.isSymbolized
  stays_released : old.isReleased = true → new.isReleased = true

namespace Sample.Ages

theorem refl (sample : Sample) : sample.Ages sample := ⟨rfl, rfl, rfl, rfl, rfl, id⟩

theorem trans {first second third : Sample} (one : first.Ages second) (two : second.Ages third) :
    first.Ages third where
  backtrace_eq := two.backtrace_eq.trans one.backtrace_eq
  locations_eq := two.locations_eq.trans one.locations_eq
  tags_eq := two.tags_eq.trans one.tags_eq
  size_eq := two.size_eq.trans one.size_eq
  symbolized_eq := two.symbolized_eq.trans one.symbolized_eq
  stays_released released := two.stays_released (one.stays_released released)

theorem markReleased (sample : Sample) : sample.Ages sample.markReleased :=
  ⟨rfl, rfl, rfl, rfl, rfl, fun _ => rfl⟩

theorem moved (sample : Sample) (identity : Identity) : sample.Ages (sample.moved identity) :=
  ⟨rfl, rfl, rfl, rfl, rfl, id⟩

end Sample.Ages

namespace Inventory

variable {inventory after : Inventory} {leaving held handles : List Handle}
  {spare : List StringId} {handle : Handle} {identity : Identity} {old : Sample}

def texts (inventory : Inventory) : List StringId :=
  inventory.store.arena.samples.flatMap Sample.texts

def places (inventory : Inventory) : List LocationId :=
  inventory.store.arena.samples.flatMap Sample.locations

/-- Every owner, every state of a sample and every reference is accounted for. -/
structure Balanced (inventory : Inventory) (leaving held : List Handle) (spare : List StringId) :
    Prop where
  owners : inventory.store.arena.Accounted
    (inventory.store.live.map Prod.snd ++ (leaving ++ held))
  identities_nodup : (inventory.store.live.map Prod.fst).Nodup
  handles_nodup : (inventory.store.live.map Prod.snd ++ leaving).Nodup
  identity_eq : ∀ {identity : Identity} {handle : Handle} {sample : Sample},
    (identity, handle) ∈ inventory.store.live → inventory.store.sample? handle = some sample →
      sample.identity = some identity
  released_iff : ∀ {handle : Handle} {sample : Sample},
    inventory.store.sample? handle = some sample →
      (sample.isReleased = true ↔ handle ∉ inventory.store.live.map Prod.snd ++ leaving)
  nameless : ∀ {handle : Handle} {sample : Sample},
    inventory.store.sample? handle = some sample → sample.isReleased = true →
      sample.identity = none
  unplaced : ∀ {handle : Handle} {sample : Sample},
    inventory.store.sample? handle = some sample → sample.isSymbolized = false →
      sample.locations = []
  tables : inventory.tables.Balanced (spare ++ inventory.texts) inventory.places

/--
Events have happened but no allocation: the samples that are left have aged, and what they and the
spare references refer to stands for what it stood for.
-/
structure Ages (before after : Inventory) (spare : List StringId) : Prop where
  survives : ∀ {handle : Handle} {sample : Sample},
    after.store.sample? handle = some sample →
      ∃ old, before.store.sample? handle = some old ∧ old.Ages sample
  keeps : before.tables.Keeps after.tables (spare ++ after.texts) after.places
  texts_subset : after.texts ⊆ before.texts
  places_subset : after.places ⊆ before.places
  maxSamples_eq : after.store.maxSamples = before.store.maxSamples
  dropped_eq : after.store.dropped = before.store.dropped

theorem balanced_empty (maxSamples : Nat) :
    Balanced { store := { maxSamples } } [] [] [] where
  owners := Arena.accounted_empty
  identities_nodup := .nil
  handles_nodup := .nil
  identity_eq member := nomatch member
  released_iff {handle sample} found := by
    simp [Store.sample?, Arena.get?, Arena.owned?] at found
  nameless {handle sample} found := by
    simp [Store.sample?, Arena.get?, Arena.owned?] at found
  unplaced {handle sample} found := by
    simp [Store.sample?, Arena.get?, Arena.owned?] at found
  tables := Tables.balanced_empty

namespace Ages

theorem refl (inventory : Inventory) (spare : List StringId) : inventory.Ages inventory spare where
  survives found := ⟨_, found, .refl _⟩
  keeps := .refl _ _ _
  texts_subset := .refl _
  places_subset := .refl _
  maxSamples_eq := rfl
  dropped_eq := rfl

theorem trans {first second third : Inventory} (one : first.Ages second spare)
    (two : second.Ages third spare) : first.Ages third spare where
  survives {handle sample} found := by
    obtain ⟨middle, middle_found, later⟩ := two.survives found
    obtain ⟨old, old_found, sooner⟩ := one.survives middle_found
    exact ⟨old, old_found, sooner.trans later⟩
  keeps := (one.keeps.mono (List.append_subset.mpr ⟨List.subset_append_left _ _,
      List.subset_append_of_subset_right _ two.texts_subset⟩)
    two.places_subset).trans two.keeps
  texts_subset := List.Subset.trans two.texts_subset one.texts_subset
  places_subset := List.Subset.trans two.places_subset one.places_subset
  maxSamples_eq := two.maxSamples_eq.trans one.maxSamples_eq
  dropped_eq := two.dropped_eq.trans one.dropped_eq

theorem of_change {arena : Arena} {live : List (Identity × Handle)} {new : Sample}
    (found : inventory.store.sample? handle = some old) (aged : old.Ages new)
    (reads : ∀ other,
      arena.get? other = if other = handle then some new else inventory.store.sample? other)
    (texts_same : (arena.samples.flatMap Sample.texts).Perm inventory.texts)
    (places_same : (arena.samples.flatMap Sample.locations).Perm inventory.places) :
    inventory.Ages { inventory with store := { inventory.store with arena, live } } spare where
  survives {other sample} reached := by
    rcases Arena.eq_or_ne_of_get? reads reached with ⟨rfl, rfl⟩ | ⟨_, before⟩
    · exact ⟨old, found, aged⟩
    · exact ⟨sample, before, .refl sample⟩
  keeps := .refl _ _ _
  texts_subset := texts_same.subset
  places_subset := places_same.subset
  maxSamples_eq := rfl
  dropped_eq := rfl

end Ages

namespace Balanced

/-- A handle leads to a sample exactly if it is live, leaving or held. -/
theorem exists_sample_iff (balanced : inventory.Balanced leaving held spare) :
    (∃ sample, inventory.store.sample? handle = some sample) ↔
      handle ∈ inventory.store.live.map Prod.snd ++ (leaving ++ held) :=
  balanced.owners.mem_iff.symm

/-- A live sample has its identity and is not released. -/
theorem exists_live_sample (balanced : inventory.Balanced leaving held spare)
    (listed : (identity, handle) ∈ inventory.store.live) :
    ∃ sample, inventory.store.sample? handle = some sample ∧ sample.identity = some identity ∧
      sample.isReleased = false := by
  have listed' := List.mem_map_of_mem (f := Prod.snd) listed
  obtain ⟨sample, found⟩ := balanced.exists_sample_iff.mpr (List.mem_append_left _ listed')
  refine ⟨sample, found, balanced.identity_eq listed found, ?_⟩
  rw [← Bool.not_eq_true, balanced.released_iff found, not_not]
  exact List.mem_append_left _ listed'

theorem congr_held (balanced : inventory.Balanced leaving held spare) {held' : List Handle}
    (same : held.Perm held') : inventory.Balanced leaving held' spare :=
  { balanced with owners := balanced.owners.congr ((same.append_left _).append_left _) }

theorem handle?_eq_some_iff (balanced : inventory.Balanced leaving held spare) :
    inventory.store.handle? identity = some handle ↔ (identity, handle) ∈ inventory.store.live := by
  constructor
  · intro found
    obtain ⟨entry, entry_found, rfl⟩ := Option.map_eq_some_iff.mp found
    have same : entry.1 = identity := by simpa using List.find?_some entry_found
    exact same ▸ List.mem_of_find?_eq_some entry_found
  · intro listed
    cases found : inventory.store.live.find? fun entry => entry.1 = identity with
    | none =>
        have absent := List.find?_eq_none.mp found _ listed
        simp at absent
    | some entry =>
        have member := List.mem_of_find?_eq_some found
        have same : entry.1 = identity := by simpa using List.find?_some found
        have equal : entry = (identity, handle) :=
          List.inj_on_of_nodup_map balanced.identities_nodup member listed same
        simp [Store.handle?, found, equal]

theorem handle?_eq_none_iff : inventory.store.handle? identity = none ↔
    ∀ handle, (identity, handle) ∉ inventory.store.live := by
  simp only [Store.handle?, Option.map_eq_none_iff, List.find?_eq_none, decide_eq_true_eq]
  constructor
  · intro absent handle listed
    exact absent _ listed rfl
  · rintro absent ⟨own, handle⟩ listed rfl
    exact absent handle listed

/-- An identity that is not in use can be listed. -/
theorem nodup_append_unused (balanced : inventory.Balanced leaving held spare)
    (unused : ∀ handle, (identity, handle) ∉ inventory.store.live) (handle : Handle) :
    ((inventory.store.live ++ [(identity, handle)]).map Prod.fst).Nodup := by
  rw [List.map_append, List.map_singleton]
  refine List.nodup_append.mpr ⟨balanced.identities_nodup, List.nodup_singleton _, ?_⟩
  rintro name member _ last rfl
  obtain ⟨⟨own, place⟩, entry_mem, rfl⟩ := List.mem_map.mp member
  obtain rfl : own = identity := List.mem_singleton.mp last
  exact unused place entry_mem

/-- An owner among those that hold comes to the front. -/
theorem owners_perm (live leaving held : List Handle) (handle : Handle) :
    (live ++ (leaving ++ handle :: held)).Perm (handle :: (live ++ (leaving ++ held))) :=
  (List.perm_middle.append_left _).trans List.perm_middle

/-- Samples may go, as long as their owners and their references go with them. -/
theorem of_remains (balanced : inventory.Balanced leaving held spare) {arena : Arena}
    {tables : Tables} {held' : List Handle}
    (remains : ∀ {handle : Handle} {sample : Sample}, arena.get? handle = some sample →
      inventory.store.sample? handle = some sample)
    (accounted : arena.Accounted (inventory.store.live.map Prod.snd ++ (leaving ++ held')))
    (counted : tables.Balanced (spare ++ arena.samples.flatMap Sample.texts)
      (arena.samples.flatMap Sample.locations)) :
    Balanced { store := { inventory.store with arena }, tables } leaving held' spare where
  owners := accounted
  identities_nodup := balanced.identities_nodup
  handles_nodup := balanced.handles_nodup
  identity_eq member reached := balanced.identity_eq member (remains reached)
  released_iff reached := balanced.released_iff (remains reached)
  nameless reached := balanced.nameless (remains reached)
  unplaced reached := balanced.unplaced (remains reached)
  tables := counted

/-! ## Single steps -/

theorem unlist (balanced : inventory.Balanced leaving held spare)
    (found : inventory.store.handle? identity = some handle) :
    Balanced { inventory with store := inventory.store.unlist identity } (handle :: leaving) held
      spare := by
  have listed := balanced.handle?_eq_some_iff.mp found
  have split : inventory.store.live.Perm
      ((identity, handle) :: (inventory.store.unlist identity).live) := by
    refine (List.perm_ext_iff_of_nodup balanced.identities_nodup.of_map ?_).mpr fun entry => ?_
    · refine List.nodup_cons.mpr ⟨fun member => ?_, balanced.identities_nodup.of_map.filter _⟩
      simp [Store.unlist] at member
    · simp only [Store.unlist, List.mem_cons, List.mem_filter, decide_eq_true_eq]
      constructor
      · intro member
        by_cases same : entry.1 = identity
        · exact .inl (List.inj_on_of_nodup_map balanced.identities_nodup member listed same)
        · exact .inr ⟨member, same⟩
      · rintro (rfl | ⟨member, _⟩)
        · exact listed
        · exact member
  have handles := split.map Prod.snd
  have moved : (inventory.store.live.map Prod.snd ++ leaving).Perm
      ((inventory.store.unlist identity).live.map Prod.snd ++ handle :: leaving) :=
    (handles.append_right leaving).trans List.perm_middle.symm
  refine
    { owners := balanced.owners.congr ?_
      identities_nodup := balanced.identities_nodup.sublist (List.filter_sublist.map _)
      handles_nodup := moved.nodup_iff.mp balanced.handles_nodup
      identity_eq := fun member => balanced.identity_eq (List.mem_filter.mp member).1
      released_iff := fun reached => (balanced.released_iff reached).trans moved.mem_iff.not
      nameless := balanced.nameless
      unplaced := balanced.unplaced
      tables := balanced.tables }
  rw [← List.append_assoc, ← List.append_assoc]
  exact moved.append_right held

/-- A handle that is leaving becomes live under an identity that is not in use. -/
theorem relist (balanced : inventory.Balanced (handle :: leaving) held spare)
    (found : inventory.store.sample? handle = some old) (named : old.identity = some identity)
    (unused : ∀ handle, (identity, handle) ∉ inventory.store.live) :
    Balanced { inventory with store :=
      { inventory.store with live := inventory.store.live ++ [(identity, handle)] } }
      leaving held spare := by
  have moved : (inventory.store.live.map Prod.snd ++ handle :: leaving).Perm
      ((inventory.store.live ++ [(identity, handle)]).map Prod.snd ++ leaving) := by simp
  refine
    { owners := balanced.owners.congr ?_
      identities_nodup := balanced.nodup_append_unused unused handle
      handles_nodup := moved.nodup_iff.mp balanced.handles_nodup
      identity_eq := fun {name place sample} member reached => ?_
      released_iff := fun reached => (balanced.released_iff reached).trans moved.mem_iff.not
      nameless := balanced.nameless
      unplaced := balanced.unplaced
      tables := balanced.tables }
  · simp
  · rcases List.mem_append.mp member with before | last
    · exact balanced.identity_eq before reached
    · cases List.mem_singleton.mp last
      cases found.symm.trans reached
      exact named

/-- What changing a sample does, if its tags stay. -/
theorem exists_modified (balanced : inventory.Balanced leaving held spare)
    (change : Sample → Sample) (found : inventory.store.sample? handle = some old)
    (tags_eq : (change old).tags = old.tags) {added : List LocationId}
    (locations_eq : (change old).locations = added ++ old.locations) :
    ∃ arena, inventory.store.modify handle change = .ok { inventory.store with arena } ∧
      arena.Accounted (inventory.store.live.map Prod.snd ++ (leaving ++ held)) ∧
      (∀ other, arena.get? other =
        if other = handle then some (change old) else inventory.store.sample? other) ∧
      (arena.samples.flatMap Sample.texts).Perm inventory.texts ∧
      (arena.samples.flatMap Sample.locations).Perm (added ++ inventory.places) := by
  obtain ⟨arena, modified, accounted, reads, rest, before, now⟩ :=
    balanced.owners.modify found change
  refine ⟨arena, by simp [Store.modify, modified], accounted, reads, ?_, ?_⟩
  · have texts_eq : (change old).texts = old.texts := by simp only [Sample.texts, tags_eq]
    refine (now.flatMap_right _).trans (.trans ?_ (before.flatMap_right _).symm)
    rw [List.flatMap_cons, List.flatMap_cons, texts_eq]
  · have places_before := before.flatMap_right Sample.locations
    have places_now := now.flatMap_right Sample.locations
    rw [List.flatMap_cons] at places_before places_now
    rw [locations_eq, List.append_assoc] at places_now
    exact places_now.trans (places_before.symm.append_left _)

/--
Changing a sample.  It may gain places that the tables count already, and its identity may change
only while it is leaving.
-/
theorem modify (balanced : inventory.Balanced leaving held spare) (change : Sample → Sample)
    (found : inventory.store.sample? handle = some old) (tags_eq : (change old).tags = old.tags)
    (released_eq : (change old).isReleased = old.isReleased)
    (named : handle ∈ leaving ∨ (change old).identity = old.identity)
    (unplaced : (change old).isSymbolized = false → (change old).locations = [])
    {tables : Tables} {added : List LocationId}
    (locations_eq : (change old).locations = added ++ old.locations)
    (counted : tables.Balanced (spare ++ inventory.texts) (added ++ inventory.places)) :
    ∃ arena, inventory.store.modify handle change = .ok { inventory.store with arena } ∧
      (∀ other, arena.get? other =
        if other = handle then some (change old) else inventory.store.sample? other) ∧
      (arena.samples.flatMap Sample.texts).Perm inventory.texts ∧
      (arena.samples.flatMap Sample.locations).Perm (added ++ inventory.places) ∧
      Balanced { store := { inventory.store with arena }, tables } leaving held spare := by
  obtain ⟨arena, modified, accounted, reads, texts_same, places_more⟩ :=
    balanced.exists_modified change found tags_eq locations_eq
  refine ⟨arena, modified, reads, texts_same, places_more, ?_⟩
  refine
    { owners := accounted
      identities_nodup := balanced.identities_nodup
      handles_nodup := balanced.handles_nodup
      identity_eq := fun {name place sample} member reached => ?_
      released_iff := fun {other sample} reached => ?_
      nameless := fun {other sample} reached gone => ?_
      unplaced := fun {other sample} reached plain => ?_
      tables := counted.congr (texts_same.symm.append_left _) places_more.symm }
  · rcases Arena.eq_or_ne_of_get? reads reached with ⟨rfl, rfl⟩ | ⟨_, before⟩
    · rcases named with listed | identity_eq
      · exact absurd listed (List.disjoint_of_nodup_append balanced.handles_nodup
          (List.mem_map_of_mem member))
      · exact identity_eq.trans (balanced.identity_eq member found)
    · exact balanced.identity_eq member before
  · rcases Arena.eq_or_ne_of_get? reads reached with ⟨rfl, rfl⟩ | ⟨_, before⟩
    · rw [released_eq]
      exact balanced.released_iff found
    · exact balanced.released_iff before
  · rcases Arena.eq_or_ne_of_get? reads reached with ⟨rfl, rfl⟩ | ⟨_, before⟩
    · rw [released_eq] at gone
      rcases named with listed | identity_eq
      · exact absurd (List.mem_append_right _ listed) ((balanced.released_iff found).mp gone)
      · exact identity_eq.trans (balanced.nameless found gone)
    · exact balanced.nameless before gone
  · rcases Arena.eq_or_ne_of_get? reads reached with ⟨rfl, rfl⟩ | ⟨_, before⟩
    · exact unplaced plain
    · exact balanced.unplaced before plain

/-- Changing a sample in something that is neither counted nor listed anywhere else. -/
theorem touch (balanced : inventory.Balanced leaving held spare) (change : Sample → Sample)
    (found : inventory.store.sample? handle = some old) (tags_eq : (change old).tags = old.tags)
    (released_eq : (change old).isReleased = old.isReleased)
    (named : handle ∈ leaving ∨ (change old).identity = old.identity)
    (symbolized_eq : (change old).isSymbolized = old.isSymbolized)
    (locations_eq : (change old).locations = old.locations) :
    ∃ arena, inventory.store.modify handle change = .ok { inventory.store with arena } ∧
      (∀ other, arena.get? other =
        if other = handle then some (change old) else inventory.store.sample? other) ∧
      (arena.samples.flatMap Sample.texts).Perm inventory.texts ∧
      (arena.samples.flatMap Sample.locations).Perm inventory.places ∧
      Balanced { inventory with store := { inventory.store with arena } } leaving held spare := by
  have unplaced : (change old).isSymbolized = false → (change old).locations = [] := by
    rw [symbolized_eq, locations_eq]
    exact balanced.unplaced found
  exact balanced.modify change found tags_eq released_eq named unplaced
    (locations_eq.trans (List.nil_append _).symm) balanced.tables

theorem symbolize (balanced : inventory.Balanced leaving held spare)
    (found : inventory.store.sample? handle = some old) (unsymbolized : old.isSymbolized = false)
    {tables : Tables} {locations : List LocationId}
    (counted : tables.Balanced (spare ++ inventory.texts) (locations ++ inventory.places)) :
    ∃ arena, inventory.store.modify handle (·.symbolized locations) =
        .ok { inventory.store with arena } ∧
      (∀ other, arena.get? other =
        if other = handle then some (old.symbolized locations)
        else inventory.store.sample? other) ∧
      Balanced { store := { inventory.store with arena }, tables } leaving held spare := by
  have locations_eq : (old.symbolized locations).locations = locations ++ old.locations := by
    rw [balanced.unplaced found unsymbolized, List.append_nil]
    rfl
  obtain ⟨arena, modified, reads, -, -, balanced'⟩ := balanced.modify (·.symbolized locations) found
    rfl rfl (.inr rfl) (fun plain => absurd plain.symm Bool.false_ne_true) locations_eq counted
  exact ⟨arena, modified, reads, balanced'⟩

/-- A sample that is leaving is marked; from then on whoever owns it can let go of it. -/
theorem mark (balanced : inventory.Balanced (handle :: leaving) held spare) :
    ∃ arena, inventory.store.modify handle Sample.markReleased =
        .ok { inventory.store with arena } ∧
      Balanced { inventory with store := { inventory.store with arena } } leaving (handle :: held)
        spare ∧
      inventory.Ages { inventory with store := { inventory.store with arena } } spare := by
  obtain ⟨old, found⟩ := balanced.exists_sample_iff.mpr
    (show handle ∈ _ from List.mem_append_right _ (List.mem_cons_self ..))
  obtain ⟨arena, modified, accounted, reads, texts_same, places_same⟩ :=
    balanced.exists_modified Sample.markReleased found rfl (List.nil_append _).symm
  have fewer : inventory.store.live.map Prod.snd ++ handle :: leaving |>.Perm
      (handle :: (inventory.store.live.map Prod.snd ++ leaving)) := List.perm_middle
  have unlisted : handle ∉ inventory.store.live.map Prod.snd ++ leaving :=
    (List.nodup_cons.mp (fewer.nodup_iff.mp balanced.handles_nodup)).1
  refine ⟨arena, modified, ?_, ?_⟩
  · refine
      { owners := accounted.congr (List.perm_middle.symm.append_left _)
        identities_nodup := balanced.identities_nodup
        handles_nodup := (List.nodup_cons.mp (fewer.nodup_iff.mp balanced.handles_nodup)).2
        identity_eq := fun {name place sample} member reached => ?_
        released_iff := fun {other sample} reached => ?_
        nameless := fun {other sample} reached gone => ?_
        unplaced := fun {other sample} reached plain => ?_
        tables := balanced.tables.congr (texts_same.symm.append_left _) places_same.symm }
    · rcases Arena.eq_or_ne_of_get? reads reached with ⟨rfl, rfl⟩ | ⟨_, before⟩
      · exact absurd (List.mem_append_left _ (List.mem_map_of_mem member)) unlisted
      · exact balanced.identity_eq member before
    · rcases Arena.eq_or_ne_of_get? reads reached with ⟨rfl, rfl⟩ | ⟨apart, before⟩
      · exact iff_of_true rfl unlisted
      · rw [balanced.released_iff before, fewer.mem_iff, List.mem_cons, not_or]
        exact and_iff_right apart
    · rcases Arena.eq_or_ne_of_get? reads reached with ⟨rfl, rfl⟩ | ⟨_, before⟩
      · rfl
      · exact balanced.nameless before gone
    · rcases Arena.eq_or_ne_of_get? reads reached with ⟨rfl, rfl⟩ | ⟨_, before⟩
      · exact show old.locations = [] from balanced.unplaced found plain
      · exact balanced.unplaced before plain
  · exact .of_change found (.markReleased old) reads texts_same places_same

/-- Taking away one owner; with the last one go the sample and its references. -/
theorem releaseHandle (balanced : inventory.Balanced leaving (handle :: held) spare) :
    ∃ after, inventory.releaseHandle handle = .ok after ∧ after.Balanced leaving held spare ∧
      after.store.live = inventory.store.live ∧ inventory.Ages after spare := by
  obtain ⟨arena, last, sample, released, found, accounted, reads, outcome⟩ :=
    (balanced.owners.congr (owners_perm _ leaving held handle)).release
  have remains {other : Handle} {content : Sample} (reached : arena.get? other = some content) :
      inventory.store.sample? other = some content := by
    rw [reads] at reached
    split at reached
    · cases reached
    · exact reached
  rcases outcome with ⟨_, rfl, same⟩ | ⟨_, rfl, gone⟩
  · refine ⟨{ inventory with store := { inventory.store with arena } },
      by simp [Inventory.releaseHandle, released], balanced.of_remains remains accounted ?_, rfl,
      ?_⟩
    · exact balanced.tables.congr ((same.symm.flatMap_right _).append_left _)
        (same.symm.flatMap_right _)
    · exact
        { survives := fun reached => ⟨_, remains reached, .refl _⟩
          keeps := .refl _ _ _
          texts_subset := (same.flatMap_right _).subset
          places_subset := (same.flatMap_right _).subset
          maxSamples_eq := rfl
          dropped_eq := rfl }
  · have texts_perm : (spare ++ inventory.texts).Perm
        (sample.texts ++ (spare ++ arena.samples.flatMap Sample.texts)) :=
      ((gone.flatMap_right Sample.texts).append_left spare).trans
        (by rw [List.flatMap_cons, ← List.append_assoc, ← List.append_assoc]
            exact List.perm_append_comm.append_right _)
    have counted := balanced.tables.congr texts_perm (gone.flatMap_right Sample.locations)
    obtain ⟨tables, given_back, counted', kept⟩ := Tables.Balanced.release_references counted
    refine ⟨{ store := { inventory.store with arena }, tables },
      by simp [Inventory.releaseHandle, released, given_back, Except.map],
      balanced.of_remains remains accounted counted', rfl, ?_⟩
    exact
      { survives := fun reached => ⟨_, remains reached, .refl _⟩
        keeps := kept
        texts_subset := fun _ member => (gone.flatMap_right _).symm.subset
          (List.mem_append_right sample.texts member)
        places_subset := fun _ member => (gone.flatMap_right _).symm.subset
          (List.mem_append_right sample.locations member)
        maxSamples_eq := rfl
        dropped_eq := rfl }

/-- Releasing a sample that has been struck from the live table. -/
theorem releaseLive (balanced : inventory.Balanced (handle :: leaving) held spare) :
    ∃ after, inventory.releaseLive handle = .ok after ∧ after.Balanced leaving held spare ∧
      after.store.live = inventory.store.live ∧ inventory.Ages after spare := by
  obtain ⟨arena, marked, balanced', aged⟩ := balanced.mark
  obtain ⟨after, released, balanced'', live_eq, aged'⟩ := balanced'.releaseHandle
  refine ⟨after, ?_, balanced'', live_eq, aged.trans aged'⟩
  simp only [Inventory.releaseLive, marked, bind, Except.bind]
  exact released

theorem releaseSnapshot (balanced : inventory.Balanced leaving (handles ++ held) spare) :
    ∃ after, inventory.releaseSnapshot handles = .ok after ∧ after.Balanced leaving held spare ∧
      after.store.live = inventory.store.live ∧ inventory.Ages after spare := by
  induction handles generalizing inventory with
  | nil => exact ⟨inventory, rfl, balanced, rfl, .refl _ _⟩
  | cons handle rest ih =>
      obtain ⟨middle, released, balanced', live_eq, aged⟩ := balanced.releaseHandle
      obtain ⟨after, others_released, balanced'', live_eq', aged'⟩ := ih balanced'
      refine ⟨after, ?_, balanced'', live_eq'.trans live_eq, aged.trans aged'⟩
      simp only [Inventory.releaseSnapshot, List.foldlM_cons, released, bind, Except.bind]
      exact others_released

theorem releaseAll (balanced : inventory.Balanced (handles ++ leaving) held spare) :
    ∃ after, handles.foldlM Inventory.releaseLive inventory = .ok after ∧
      after.Balanced leaving held spare ∧ after.store.live = inventory.store.live ∧
      inventory.Ages after spare := by
  induction handles generalizing inventory with
  | nil => exact ⟨inventory, rfl, balanced, rfl, .refl _ _⟩
  | cons handle rest ih =>
      obtain ⟨middle, released, balanced', live_eq, aged⟩ := balanced.releaseLive
      obtain ⟨after, others_released, balanced'', live_eq', aged'⟩ := ih balanced'
      refine ⟨after, ?_, balanced'', live_eq'.trans live_eq, aged.trans aged'⟩
      simp only [List.foldlM_cons, released, bind, Except.bind]
      exact others_released

/-- A drop gives the references back that the call had taken. -/
theorem recordDrop {tags : List Tag} {others : List StringId}
    (balanced : inventory.Balanced [] held spare)
    (owned : spare.Perm (tags.flatMap Tag.texts ++ others)) :
    ∃ tables, tags.foldlM releaseTag inventory.tables = .ok tables ∧
      Balanced { store := inventory.store.recordDrop, tables } [] held others ∧
      inventory.tables.Keeps tables (others ++ inventory.texts) inventory.places := by
  have shared := owned.append_right inventory.texts
  rw [List.append_assoc] at shared
  obtain ⟨tables, released, counted, kept⟩ :=
    (balanced.tables.congr shared (.refl _)).release_tags
  exact ⟨tables, released, { balanced with tables := counted }, kept⟩

/-- Adding a sample for an identity that is not live; it takes the references to its tags over. -/
theorem insert {tags : List Tag} {others : List StringId} {backtrace : Backtrace} {arena : Arena}
    (balanced : inventory.Balanced [] held spare)
    (owned : spare.Perm (tags.flatMap Tag.texts ++ others))
    (unused : ∀ handle, (identity, handle) ∉ inventory.store.live)
    (inserted :
      inventory.store.arena.insert (.new identity tags backtrace) = some (arena, handle)) :
    Balanced { inventory with store :=
        { inventory.store with arena, live := inventory.store.live ++ [(identity, handle)] } }
      [] held others ∧
      handle ∉ inventory.store.live.map Prod.snd ++ held ∧
      ∀ other, arena.get? other =
        if other = handle then some (.new identity tags backtrace)
        else inventory.store.sample? other := by
  obtain ⟨accounted, fresh, reads, more⟩ := balanced.owners.insert inserted
  refine ⟨?_, fresh, reads⟩
  have unlisted : handle ∉ inventory.store.live.map Prod.snd :=
    fun listed => fresh (List.mem_append_left _ listed)
  have appended : ((inventory.store.live ++ [(identity, handle)]).map Prod.snd).Perm
      (handle :: inventory.store.live.map Prod.snd) := by
    rw [List.map_append]
    exact List.perm_append_comm
  refine
    { owners := accounted.congr (appended.symm.append_right _)
      identities_nodup := balanced.nodup_append_unused unused handle
      handles_nodup := ?_
      identity_eq := fun {name place sample} member reached => ?_
      released_iff := fun {other sample} reached => ?_
      nameless := fun {other sample} reached gone => ?_
      unplaced := fun {other sample} reached plain => ?_
      tables := balanced.tables.congr ?_ ?_ }
  · rw [List.append_nil, appended.nodup_iff]
    exact List.nodup_cons.mpr ⟨unlisted, by simpa using balanced.handles_nodup⟩
  · rcases List.mem_append.mp member with before | last
    · rcases Arena.eq_or_ne_of_get? reads reached with ⟨rfl, rfl⟩ | ⟨_, reached'⟩
      · exact absurd (List.mem_map_of_mem before) unlisted
      · exact balanced.identity_eq before reached'
    · cases List.mem_singleton.mp last
      rcases Arena.eq_or_ne_of_get? reads reached with ⟨_, rfl⟩ | ⟨apart, _⟩
      · rfl
      · exact absurd rfl apart
  · rw [List.append_nil, appended.mem_iff, List.mem_cons, not_or]
    rcases Arena.eq_or_ne_of_get? reads reached with ⟨rfl, rfl⟩ | ⟨apart, before⟩
    · simp [Sample.new, Sample.isReleased]
    · rw [balanced.released_iff before, List.append_nil]
      exact (and_iff_right apart).symm
  · rcases Arena.eq_or_ne_of_get? reads reached with ⟨rfl, rfl⟩ | ⟨_, before⟩
    · cases gone
    · exact balanced.nameless before gone
  · rcases Arena.eq_or_ne_of_get? reads reached with ⟨rfl, rfl⟩ | ⟨_, before⟩
    · rfl
    · exact balanced.unplaced before plain
  · refine .trans (owned.append_right _) (.trans ?_ ((more.flatMap_right _).symm.append_left _))
    rw [List.flatMap_cons, ← List.append_assoc]
    exact List.perm_append_comm.append_right _
  · refine (List.Perm.trans ?_ (more.flatMap_right Sample.locations).symm)
    rw [List.flatMap_cons]
    rfl

/-- A sample that is owned is still there when events have happened. -/
theorem exists_aged (balanced : after.Balanced leaving held spare)
    (aged : inventory.Ages after spare)
    (handle : Handle) (owned : handle ∈ after.store.live.map Prod.snd ++ (leaving ++ held)) :
    ∃ old sample, inventory.store.sample? handle = some old ∧
      after.store.sample? handle = some sample ∧ old.Ages sample := by
  obtain ⟨sample, found⟩ := balanced.exists_sample_iff.mpr owned
  obtain ⟨old, old_found, same⟩ := aged.survives found
  exact ⟨old, sample, old_found, found, same⟩

/-! ## Snapshots -/

theorem retain {store : Store} (balanced : inventory.Balanced leaving held spare)
    (retained : inventory.store.retain handle = .ok store) :
    Balanced { inventory with store } leaving (handle :: held) spare ∧
      ∃ arena, store = { inventory.store with arena } ∧
        ∀ other, arena.get? other = inventory.store.sample? other := by
  unfold Store.retain at retained
  split at retained
  · rename_i arena arena_retained
    cases retained
    obtain ⟨accounted, reads, same⟩ := balanced.owners.retain arena_retained
    have remains {other : Handle} {sample : Sample} (reached : arena.get? other = some sample) :
        inventory.store.sample? other = some sample := (reads other).symm.trans reached
    have counted := balanced.tables.congr
      ((same.symm.flatMap_right Sample.texts).append_left spare)
      (same.symm.flatMap_right Sample.locations)
    have front := owners_perm (inventory.store.live.map Prod.snd) leaving held handle
    exact ⟨balanced.of_remains remains (accounted.congr front.symm) counted, arena, rfl, reads⟩
  · cases retained

theorem retainAll {store : Store} (balanced : inventory.Balanced leaving held spare)
    (retained : handles.foldlM Store.retain inventory.store = .ok store) :
    Balanced { inventory with store } leaving (handles ++ held) spare ∧
      ∃ arena, store = { inventory.store with arena } ∧
        ∀ other, arena.get? other = inventory.store.sample? other := by
  induction handles generalizing inventory held with
  | nil =>
      cases retained
      exact ⟨balanced, inventory.store.arena, rfl, fun _ => rfl⟩
  | cons handle rest ih =>
      simp only [List.foldlM_cons, bind, Except.bind] at retained
      split at retained
      · cases retained
      · rename_i middle first_retained
        obtain ⟨balanced', arena, rfl, reads⟩ := balanced.retain first_retained
        obtain ⟨balanced'', last, rfl, reads'⟩ := ih balanced' retained
        exact ⟨balanced''.congr_held List.perm_middle, last, rfl,
          fun other => (reads' other).trans (reads other)⟩

/-- A snapshot becomes an owner of every live sample and changes none. -/
theorem snapshot {store : Store} (balanced : inventory.Balanced leaving held spare)
    (taken : inventory.store.snapshot = .ok (handles, store)) :
    handles = inventory.store.live.map Prod.snd ∧
      Balanced { inventory with store } leaving (handles ++ held) spare ∧
      ∃ arena, store = { inventory.store with arena } ∧
        ∀ other, arena.get? other = inventory.store.sample? other := by
  simp only [Store.snapshot, bind, Except.bind, pure, Except.pure] at taken
  split at taken
  · cases taken
  · rename_i retained
    simp only [Except.ok.injEq, Prod.mk.injEq] at taken
    obtain ⟨rfl, rfl⟩ := taken
    exact ⟨rfl, balanced.retainAll retained⟩

end Balanced

end Inventory

end HeapSampler
