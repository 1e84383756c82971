import Mathlib
import HeapSampler.Proofs.Collector.Quiet
import HeapSampler.Proofs.Export.Encode
import HeapSampler.Proofs.Pprof.Sorted

/-!
# What an undisturbed flush exports

A flush goes through the live entries twice: the first time every sample gets its places or turns
out to have none, the second time those with places get their sizes.  What has both is exported,
and it says what the scene says.
-/

namespace HeapSampler

variable {host : Host} {scene : Scene} {collector after : Collector} {cycle : Cycle}
  {included : List Handle} {stack : Backtrace} {reply : Reply} {object : LiveObject}
  {sample : Sample}

/-! ## What a sample says -/

/-- A sample that has the tags, the places and the size of an object. -/
structure Measured (host : Host) (tables : Tables) (object : LiveObject) (sample : Sample) :
    Prop where
  tagged : Tagged tables object sample
  placed : Placed host tables object sample
  sized : ∃ size, host.objectSize object.identity = some size ∧ sample.size = some size

theorem frame_withName (place : NamedPlace) : place.withName.frame = {
    functionName := if place.functionName = "" then "(unknown)" else place.functionName
    fileName := place.fileName
    line := Int64.ofNat place.line.toNat } := by
  unfold NamedPlace.withName
  split
  · rfl
  · rfl

/-- A measured sample says what is expected of its object. -/
theorem Measured.exists_resolved {tables : Tables} (measured : Measured host tables object sample) :
    ∃ resolved, object.expected? host = some resolved ∧
      sample.resolved? tables = some resolved := by
  obtain ⟨⟨pairs, same, tagged⟩, ⟨symbolized, places, answer, placed⟩, size, told, sized⟩ :=
    measured
  have names : sample.locations.map tables.place? = (places.map NamedPlace.withName).map some := by
    rw [placed, List.map_map]
    rfl
  refine ⟨resolvedSample (places.map NamedPlace.withName) pairs (some size), ?_, ?_⟩
  · have frames : (places.map NamedPlace.withName).map NamedPlace.frame = _ :=
      (List.map_map ..).trans (List.map_congr_left fun place _ => frame_withName place)
    have tags : Pprof.sorted (pairs.map resolvedTag) =
        Pprof.sorted (object.tags.entries.map resolvedTag) :=
      Pprof.sorted_eq_of_perm (same.map _)
    simp only [LiveObject.expected?, answer, told, resolvedSample, frames, tags]
    rfl
  · simp only [Sample.resolved?, mapM_of_map_eq names, mapM_of_map_eq tagged, sized]
    rfl

theorem Measured.fits {tables : Tables} (measured : Measured host tables object sample)
    (host_fits : host.Fits) (object_fits : TagsFit (2 ^ 59) object.tags.entries) :
    sample.Fits tables := by
  obtain ⟨⟨pairs, same, tagged⟩, ⟨-, places, answer, placed⟩, -⟩ := measured
  refine ⟨fun tag listed pair stands => ?_, fun id listed place stands => ?_, ?_, ?_⟩
  · have member : some pair ∈ pairs.map some := by
      rw [← tagged, ← stands]
      exact List.mem_map_of_mem listed
    obtain ⟨own, own_listed, equal⟩ := List.mem_map.mp member
    cases equal
    exact object_fits.texts pair (same.mem_iff.mp own_listed)
  · have member : some place ∈ places.map fun place => some place.withName := by
      rw [← placed, ← stands]
      exact List.mem_map_of_mem listed
    obtain ⟨own, own_listed, equal⟩ := List.mem_map.mp member
    cases equal
    obtain ⟨name, file⟩ := host_fits.texts answer own own_listed
    unfold NamedPlace.withName
    split
    · exact ⟨(by decide : Wire.TextFits unknownFunction), file⟩
    · exact ⟨name, file⟩
  · have length_eq := congrArg List.length placed
    rw [List.length_map, List.length_map] at length_eq
    rw [length_eq]
    exact host_fits.length_lt answer
  · have length_eq := congrArg List.length tagged
    rw [List.length_map, List.length_map, same.length_eq] at length_eq
    rw [length_eq]
    exact object_fits.length_lt

/-! ## The end of a flush -/

def LiveObject.isExpected (host : Host) (object : LiveObject) : Bool :=
  (object.expected? host).isSome

def Included (host : Host) (inventory : Inventory) (object : LiveObject) (handle : Handle) : Prop :=
  ∃ sample, Measured host inventory.tables object sample ∧
    inventory.store.sample? handle = some sample

def Exports (host : Host) (scene : Scene) (after : Collector) (reply : Reply) : Prop :=
  Represents host scene after ∧ ∀ profile, reply = .flushed (.ok profile) →
    ∃ message, Pprof.decode profile.bytes = .ok message ∧
      message.resolve = .ok (scene.expected host)

theorem filterMap_isExpected (host : Host) (objects : List LiveObject) :
    (objects.filter (·.isExpected host)).filterMap (·.expected? host) =
      objects.filterMap (·.expected? host) := by
  rw [List.filterMap_filter]
  refine List.filterMap_congr fun object _ => ?_
  cases found : object.expected? host with
  | none => simp
  | some resolved => simp [LiveObject.isExpected, found]

/-- The export of measured samples says what is expected of their objects. -/
theorem decode_of_included {objects : List LiveObject} {inventory : Inventory} {bytes : List UInt8}
    {options : ExportOptions} (bounded : inventory.tables.Bounded) (host_fits : host.Fits)
    (object_fits : ∀ object ∈ objects, TagsFit (2 ^ 59) object.tags.entries)
    (all : List.Forall₂ (Included host inventory) (objects.filter (·.isExpected host)) included)
    (encoded : encodeProfile inventory.tables (included.filterMap inventory.store.sample?) options =
      .ok bytes) :
    ∃ message, Pprof.decode bytes = .ok message ∧
      message.resolve = .ok (Pprof.sorted (objects.filterMap (·.expected? host))) := by
  obtain ⟨samples, measured, reached⟩ := exists_between all
  rw [filterMap_of_forall₂ reached] at encoded
  have fits (own : Sample) (listed : own ∈ samples) : own.Fits inventory.tables := by
    obtain ⟨object, object_listed, own_measured⟩ := exists_left measured listed
    exact own_measured.fits host_fits (object_fits object (List.mem_of_mem_filter object_listed))
  obtain ⟨message, resolved, decoded, resolved_eq, resolves⟩ :=
    decode_of_encodeProfile bounded fits encoded
  obtain ⟨values, expected, own_resolved⟩ := exists_between
    (measured.imp fun _ _ each => each.exists_resolved)
  have same : resolved = objects.filterMap (·.expected? host) := by
    have mapped : samples.mapM (Sample.resolved? inventory.tables) = some values :=
      mapM_eq_pure own_resolved
    rw [← filterMap_isExpected, filterMap_of_forall₂ expected]
    exact Option.some.inj (resolved_eq.symm.trans mapped)
  exact ⟨message, decoded, by rw [resolves, same]⟩

/-! ## Flushes under way -/

/-- A flush under way owns the live samples; otherwise all is as its scene tells. -/
structure Amid (scene : Scene) (cycle : Cycle) (collector : Collector) : Prop where
  running_eq : collector.running = scene.running
  settings_eq : collector.settings = scene.settings
  maxSamples_eq : collector.store.maxSamples = scene.settings.settings.maxSamples
  balanced : collector.inventory.Balanced [] cycle.snapshot []
  snapshot_eq : cycle.snapshot = collector.store.live.map Prod.snd

/-- When the snapshot is given back the scene is still represented. -/
theorem Amid.exists_released {objects : List LiveObject} (amid : Amid scene cycle collector)
    (same : objects.Perm scene.live)
    (stored : List.Forall₂ (Stored host collector.inventory true) objects collector.store.live) :
    ∃ inventory, collector.inventory.releaseSnapshot cycle.snapshot = .ok inventory ∧
      Represents host scene { collector with inventory, flushing := false } := by
  have balanced := amid.balanced
  rw [← List.append_nil cycle.snapshot] at balanced
  obtain ⟨inventory, released, balanced', live_eq, aged⟩ := balanced.releaseSnapshot
  have untried : Mirrors host collector.inventory collector.store.live scene.live :=
    ⟨objects, same, stored.imp fun _ _ => Stored.untried⟩
  have preserves := aged.preserves_live balanced'
  refine ⟨inventory, released, ?_⟩
  exact {
    running_eq := amid.running_eq
    settings_eq := amid.settings_eq
    maxSamples_eq := aged.maxSamples_eq.trans amid.maxSamples_eq
    idle := rfl
    balanced := balanced'
    mirrors := by
      change Mirrors host inventory inventory.store.live _
      rw [live_eq] at preserves ⊢
      exact untried.mono preserves }

theorem exports_of_finish {objects : List LiveObject} (host_fits : host.Fits)
    (scene_fits : scene.Fits) (amid : Amid scene cycle collector) (same : objects.Perm scene.live)
    (stored : List.Forall₂ (Stored host collector.inventory true) objects collector.store.live)
    (all : List.Forall₂ (Included host collector.inventory) (objects.filter (·.isExpected host))
      included)
    (went : Collector.driven { host with stack } (collector.finish cycle included) =
      .ok (after, reply)) : Exports host scene after reply := by
  obtain ⟨inventory, released', represents⟩ := amid.exists_released same stored
  cases Collector.finishes_of_driven went with
  | exported encoded released =>
      cases released.symm.trans released'
      refine ⟨represents, fun profile exported => ?_⟩
      cases exported
      obtain ⟨message, decoded, resolves⟩ := decode_of_included amid.balanced.tables.bounded
        host_fits (fun object listed => scene_fits.live object (same.mem_iff.mp listed)) all
        encoded
      refine ⟨message, decoded, resolves.trans (congrArg Except.ok ?_)⟩
      exact Pprof.sorted_eq_of_perm (same.filterMap _)
  | failed encoded released =>
      cases released.symm.trans released'
      refine ⟨?_, fun profile impossible => nomatch impossible⟩
      exact { represents with
        balanced := { represents.balanced with }, mirrors := represents.mirrors }

/-- A flush has dealt with one of its samples, and left all others as they were. -/
structure Visit (scene : Scene) (cycle : Cycle) (handle : Handle) (before after : Collector) :
    Prop where
  amid : Amid scene cycle after
  live_eq : after.store.live = before.store.live
  reads : ∀ other, other ≠ handle → after.store.sample? other = before.store.sample? other
  extends_ : before.tables.Extends after.tables

theorem Visit.refl (amid : Amid scene cycle collector) (handle : Handle) :
    Visit scene cycle handle collector collector where
  amid := amid
  live_eq := rfl
  reads _ _ := rfl
  extends_ := .refl _

theorem Visit.trans {middle : Collector} {cycle' : Cycle} {handle : Handle}
    (first : Visit scene cycle handle collector middle)
    (second : Visit scene cycle' handle middle after) :
    Visit scene cycle' handle collector after where
  amid := second.amid
  live_eq := second.live_eq.trans first.live_eq
  reads other apart := (second.reads other apart).trans (first.reads other apart)
  extends_ := first.extends_.trans second.extends_

theorem Amid.touch {handle : Handle} (amid : Amid scene cycle collector)
    (change : Sample → Sample) (found : collector.store.sample? handle = some sample)
    (tags_eq : (change sample).tags = sample.tags)
    (released_eq : (change sample).isReleased = sample.isReleased)
    (identity_eq : (change sample).identity = sample.identity)
    (symbolized_eq : (change sample).isSymbolized = sample.isSymbolized)
    (locations_eq : (change sample).locations = sample.locations) :
    ∃ store, collector.store.modify handle change = .ok store ∧
      store.sample? handle = some (change sample) ∧
      Visit scene cycle handle collector (collector.withStore store) := by
  obtain ⟨arena, modified, reads, -, -, balanced⟩ := amid.balanced.touch change found tags_eq
    released_eq (.inr identity_eq) symbolized_eq locations_eq
  exact ⟨_, modified, (reads handle).trans (if_pos rfl), { amid with balanced := balanced }, rfl,
    fun other apart => (reads other).trans (if_neg apart), .refl _⟩

theorem Amid.symbolize {handle : Handle} (amid : Amid scene cycle collector)
    (found : collector.store.sample? handle = some sample)
    (unsymbolized : sample.isSymbolized = false) {tables : Tables} {locations : List LocationId}
    (extends_ : collector.tables.Extends tables)
    (counted : tables.Balanced collector.inventory.texts
      (locations ++ collector.inventory.places)) :
    ∃ store, collector.store.modify handle (·.symbolized locations) = .ok store ∧
      store.sample? handle = some (sample.symbolized locations) ∧
      Visit scene cycle handle collector { collector with inventory := { store, tables } } := by
  obtain ⟨arena, modified, reads, balanced⟩ :=
    amid.balanced.symbolize found unsymbolized counted
  exact ⟨_, modified, (reads handle).trans (if_pos rfl), { amid with balanced := balanced }, rfl,
    fun other apart => (reads other).trans (if_neg apart), extends_⟩

/-- What a flush does to one sample leaves the objects behind all others as they are. -/
theorem Visit.stored {tried : Bool} {objects : List LiveObject}
    {entries : List (Identity × Handle)} {handle : Handle}
    (visit : Visit scene cycle handle collector after)
    (stored : List.Forall₂ (Stored host collector.inventory tried) objects entries)
    (apart : handle ∉ entries.map Prod.snd) :
    List.Forall₂ (Stored host after.inventory tried) objects entries := by
  refine forall₂_imp_mem (fun entry listed object each => ?_) stored
  have differs : entry.2 ≠ handle := fun same => apart (same ▸ List.mem_map_of_mem listed)
  obtain ⟨-, sample, found, -⟩ := id each
  exact each.mono (Inventory.preserves_of_extends found
    ((visit.reads _ differs).trans found) visit.extends_)

theorem Visit.keeps_included {handle other : Handle} {object : LiveObject}
    (visit : Visit scene cycle handle collector after) (tables_eq : after.tables = collector.tables)
    (member : Included host collector.inventory object other) (apart : other ≠ handle) :
    Included host after.inventory object other := by
  obtain ⟨sample, measured, found⟩ := member
  refine ⟨sample, ?_, (visit.reads other apart).trans found⟩
  rw [show after.inventory.tables = collector.inventory.tables from tables_eq]
  exact measured

/--
A flush goes through its live entries.  The objects of those it has `passed` have been tried, those
of the entries `left` are `due`; whether these have been tried depends on what the flush is after.
-/
structure Pass (host : Host) (scene : Scene) (cycle : Cycle) (tried : Bool) (collector : Collector)
    (done due : List LiveObject) (passed left : List (Identity × Handle)) : Prop where
  amid : Amid scene cycle collector
  live_eq : collector.store.live = passed ++ left
  same : (done ++ due).Perm scene.live
  stored : List.Forall₂ (Stored host collector.inventory true) done passed
  waiting : List.Forall₂ (Stored host collector.inventory tried) due left

namespace Pass

variable {tried : Bool} {done due : List LiveObject} {passed left : List (Identity × Handle)}
  {entry : Identity × Handle}

theorem listed (pass : Pass host scene cycle tried collector done due passed (entry :: left)) :
    entry ∈ collector.store.live := by
  rw [pass.live_eq]
  exact List.mem_append_right _ List.mem_cons_self

theorem apart (pass : Pass host scene cycle tried collector done due passed (entry :: left)) :
    entry.2 ∉ passed.map Prod.snd ∧ entry.2 ∉ left.map Prod.snd :=
  Collector.apart_of_live pass.amid.balanced pass.live_eq

/-- Once an entry has been dealt with, the next one is due. -/
theorem advance {cycle' : Cycle} (pass : Pass host scene cycle tried collector done
      (object :: due) passed (entry :: left))
    (visit : Visit scene cycle' entry.2 collector after)
    (settled : Stored host after.inventory true object entry) :
    Pass host scene cycle' tried after (done ++ [object]) due (passed ++ [entry]) left := by
  obtain ⟨unpassed, unlisted⟩ := pass.apart
  cases pass.waiting with
  | cons _ others =>
      exact {
        amid := visit.amid
        live_eq := by rw [visit.live_eq, pass.live_eq, List.append_cons]
        same := by
          rw [← List.append_cons]
          exact pass.same
        stored := List.rel_append (visit.stored pass.stored unpassed) (.cons settled .nil)
        waiting := visit.stored others unlisted }

end Pass

/-! ## Measuring -/

section Measuring

variable {entry : Identity × Handle} {handles : List Handle}

/-- An undisturbed flush measures a sample and includes it, or nothing is expected of it. -/
theorem exists_visit_of_measureFrom (amid : Amid scene cycle collector)
    (listed : entry ∈ collector.store.live)
    (stored : Stored host collector.inventory true object entry)
    (went : Collector.driven { host with stack }
      (collector.measureFrom cycle included (entry.2 :: handles)) = .ok (after, reply)) :
    ∃ next included', Visit scene cycle entry.2 collector next ∧ next.tables = collector.tables ∧
      Stored host next.inventory true object entry ∧
      (object.isExpected host = false ∧ included' = included ∨
        object.isExpected host = true ∧ included' = entry.2 :: included ∧
          Included host next.inventory object entry.2) ∧
      Collector.driven { host with stack } (next.measureFrom cycle included' handles) =
        .ok (after, reply) := by
  obtain ⟨named, sample, found, tagged, stage⟩ := id stored
  obtain ⟨own, own_found, identity_eq, unreleased⟩ := amid.balanced.exists_live_sample listed
  cases found.symm.trans own_found
  have found' : collector.store.sample? entry.2 = some sample := found
  rcases Collector.measureFrom_cases found' identity_eq unreleased went with
    ⟨lacks, went'⟩ | ⟨size, store, symbolized, (told : host.objectSize _ = _), taken, went'⟩
  · have unexpected : object.expected? host = none := by
      rcases stage with ⟨unsymbolized, -, failed⟩ | ⟨symbolized, places, answer, placed⟩
      · obtain ⟨cause, answer⟩ := failed rfl
        simp [LiveObject.expected?, answer]
      · have untold : host.objectSize entry.1 = none := lacks.resolve_left (by simp [symbolized])
        simp [LiveObject.expected?, answer, ← named, untold]
    have skipped : object.isExpected host = false := by
      rw [LiveObject.isExpected, unexpected]
      rfl
    exact ⟨collector, included, .refl amid _, rfl, stored, .inl ⟨skipped, rfl⟩, went'⟩
  · obtain ⟨-, places, answer, placed⟩ := stage.resolve_left fun ⟨unsymbolized, _⟩ => by
      simp [symbolized] at unsymbolized
    obtain ⟨store, modified, here, visit⟩ :=
      amid.touch (·.measured size) found rfl rfl rfl rfl rfl
    cases taken.symm.trans modified
    have measured : Measured host collector.tables object (sample.measured size) :=
      ⟨tagged, ⟨symbolized, places, answer, placed⟩, size, named ▸ told, rfl⟩
    have expected : object.isExpected host = true := by
      simp [LiveObject.isExpected, LiveObject.expected?, answer, ← named, told]
    exact ⟨collector.withStore store, entry.2 :: included, visit, rfl,
      ⟨named, _, here, tagged, .inr ⟨symbolized, places, answer, placed⟩⟩,
      .inr ⟨expected, rfl, _, measured, here⟩, went'⟩

end Measuring

theorem exports_of_measureFrom {done due : List LiveObject}
    {passed left : List (Identity × Handle)} (host_fits : host.Fits) (scene_fits : scene.Fits)
    (pass : Pass host scene cycle true collector done due passed left)
    (all : List.Forall₂ (Included host collector.inventory) (done.filter (·.isExpected host))
      included.reverse)
    (within : included ⊆ passed.map Prod.snd)
    (went : Collector.driven { host with stack }
      (collector.measureFrom cycle included (left.map Prod.snd)) = .ok (after, reply)) :
    Exports host scene after reply := by
  induction left generalizing collector done due passed included with
  | nil =>
      obtain ⟨amid, live_eq, same, stored, waiting⟩ := pass
      cases waiting
      rw [List.append_nil] at live_eq same
      rw [← live_eq] at stored
      exact exports_of_finish host_fits scene_fits amid same stored all went
  | cons entry rest ih =>
      cases id pass.waiting with
      | cons first others =>
          rename_i object later
          obtain ⟨next, included', visit, tables_eq, settled, outcome, went'⟩ :=
            exists_visit_of_measureFrom pass.amid pass.listed first went
          have unpassed := pass.apart.1
          have kept : List.Forall₂ (Included host next.inventory) (done.filter (·.isExpected host))
              included.reverse := by
            refine forall₂_imp_mem (fun handle listed own each => ?_) all
            refine visit.keeps_included tables_eq each ?_
            rintro rfl
            exact unpassed (within (List.mem_reverse.mp listed))
          refine ih (pass.advance visit settled) ?_ ?_ went'
          · rw [List.filter_append]
            rcases outcome with ⟨unexpected, rfl⟩ | ⟨expected, rfl, new⟩
            · rw [List.filter_cons_of_neg (by simp [unexpected]), List.filter_nil, List.append_nil]
              exact kept
            · rw [List.filter_cons_of_pos expected, List.filter_nil, List.reverse_cons]
              exact List.rel_append kept (.cons new .nil)
          · rw [List.map_append]
            rcases outcome with ⟨-, rfl⟩ | ⟨-, rfl, -⟩
            · exact List.subset_append_of_subset_left _ within
            · exact List.cons_subset.mpr ⟨List.mem_append_right _ List.mem_cons_self,
                List.subset_append_of_subset_left _ within⟩

/-! ## Symbolizing -/

section Symbolizing

variable {entry : Identity × Handle} {handles : List Handle}

/-- The places of a backtrace go to its sample; if it has none, the sample gets it back. -/
theorem exists_visit_of_resumeSymbolize (amid : Amid scene cycle collector)
    (named : entry.1 = object.identity)
    (found : collector.store.sample? entry.2 = some sample)
    (tagged : Tagged collector.tables object sample) (unsymbolized : sample.isSymbolized = false)
    (went : Collector.driven { host with stack } (collector.resumeSymbolize cycle entry.2
      object.backtrace handles (host.symbolize object.backtrace)) = .ok (after, reply)) :
    ∃ cycle' next, Visit scene cycle' entry.2 collector next ∧
      Stored host next.inventory true object entry ∧
      Collector.driven { host with stack } (next.symbolizeFrom cycle' handles) =
        .ok (after, reply) := by
  cases answer : host.symbolize object.backtrace with
  | error cause =>
      obtain ⟨store, modified, here, visit⟩ :=
        amid.touch (·.withBacktrace object.backtrace) found rfl rfl rfl rfl rfl
      simp only [Collector.resumeSymbolize, answer, modified] at went
      exact ⟨{ cycle with skipped := cycle.skipped + 1 }, collector.withStore store,
        { visit with amid := { visit.amid with } },
        ⟨named, _, here, tagged, .inl ⟨unsymbolized, rfl, fun _ => ⟨cause, answer⟩⟩⟩, went⟩
  | ok places =>
      simp only [Collector.resumeSymbolize, answer] at went
      cases interned : collector.tables.internPlaces places with
      | error cause => simp [interned] at went
      | ok result =>
          obtain ⟨tables, locations⟩ := result
          obtain ⟨counted, extends_, stands⟩ := amid.balanced.tables.intern_places interned
          obtain ⟨store, modified, here, visit⟩ :=
            amid.symbolize found unsymbolized extends_ counted
          simp only [interned, modified, bind, Except.bind] at went
          exact ⟨cycle, _, visit, ⟨named, _, here, tagged.mono extends_,
            .inr ⟨rfl, places, answer, stands⟩⟩, went⟩

/-- An undisturbed flush tries to symbolize a sample, unless it was symbolized before. -/
theorem exists_visit_of_symbolizeFrom (amid : Amid scene cycle collector)
    (listed : entry ∈ collector.store.live)
    (stored : Stored host collector.inventory false object entry)
    (went : Collector.driven { host with stack }
      (collector.symbolizeFrom cycle (entry.2 :: handles)) = .ok (after, reply)) :
    ∃ cycle' next, Visit scene cycle' entry.2 collector next ∧
      Stored host next.inventory true object entry ∧
      Collector.driven { host with stack } (next.symbolizeFrom cycle' handles) =
        .ok (after, reply) := by
  obtain ⟨named, sample, found, tagged, stage⟩ := stored
  obtain ⟨own, own_found, -, unreleased⟩ := amid.balanced.exists_live_sample listed
  cases found.symm.trans own_found
  have found' : collector.store.sample? entry.2 = some sample := found
  rcases Collector.symbolizeFrom_cases found' unreleased went with
    ⟨settled, went'⟩ | ⟨backtrace, store, present, unsymbolized, taken, went'⟩
  · have placed := stage.resolve_left fun ⟨unsymbolized, present, _⟩ => by
      simp [unsymbolized, present] at settled
    exact ⟨cycle, collector, .refl amid _, ⟨named, sample, found, tagged, .inr placed⟩, went'⟩
  · obtain ⟨-, own_present, -⟩ := stage.resolve_right fun ⟨symbolized, _⟩ => by
      simp [symbolized] at unsymbolized
    cases present.symm.trans own_present
    obtain ⟨store, modified, here, taken_out⟩ :=
      amid.touch Sample.withoutBacktrace found rfl rfl rfl rfl rfl
    cases taken.symm.trans modified
    obtain ⟨cycle', next, visit, settled, went''⟩ :=
      exists_visit_of_resumeSymbolize taken_out.amid named here tagged unsymbolized went'
    exact ⟨cycle', next, taken_out.trans visit, settled, went''⟩

end Symbolizing

theorem exports_of_symbolizeFrom {done due : List LiveObject}
    {passed left : List (Identity × Handle)} (host_fits : host.Fits) (scene_fits : scene.Fits)
    (pass : Pass host scene cycle false collector done due passed left)
    (went : Collector.driven { host with stack }
      (collector.symbolizeFrom cycle (left.map Prod.snd)) = .ok (after, reply)) :
    Exports host scene after reply := by
  induction left generalizing collector cycle done due passed with
  | nil =>
      obtain ⟨amid, live_eq, same, stored, waiting⟩ := pass
      cases waiting
      rw [List.append_nil] at live_eq same
      rw [← live_eq] at stored
      rw [List.map_nil, Collector.symbolizeFrom, amid.snapshot_eq] at went
      have again : Pass host scene cycle true collector [] done [] collector.store.live :=
        ⟨amid, (List.nil_append _).symm, same, .nil, stored⟩
      exact exports_of_measureFrom host_fits scene_fits again .nil (List.nil_subset _) went
  | cons entry rest ih =>
      cases id pass.waiting with
      | cons first others =>
          obtain ⟨cycle', next, visit, settled, went'⟩ :=
            exists_visit_of_symbolizeFrom pass.amid pass.listed first went
          exact ih (pass.advance visit settled) went'

/-! ## Whole flushes -/

/-- A flush leaves the scene as it is and exports what the scene says. -/
theorem Represents.flush (represents : Represents host scene collector) (host_fits : host.Fits)
    (scene_fits : scene.Fits) {clock : Clock}
    (performed : Collector.driven { host with stack } (collector.flush clock) =
      .ok (after, reply)) : Exports host scene after reply := by
  obtain ⟨arena, begun, reads, balanced⟩ :=
    Collector.flush_of_idle represents.idle represents.balanced clock
  rw [begun] at performed
  have mirrors : Mirrors host { collector.inventory with store :=
      { collector.inventory.store with arena, dropped := 0 } } collector.store.live
      scene.live := by
    refine represents.mirrors.mono fun entry listed => ?_
    obtain ⟨sample, found, -⟩ := represents.balanced.exists_live_sample listed
    exact Inventory.preserves_of_extends found ((reads entry.2).trans found) (.refl _)
  obtain ⟨objects, same, stored⟩ := mirrors
  have whole : ([] ++ objects).Perm scene.live := same
  have amid : Amid scene
      { snapshot := collector.store.live.map Prod.snd
        dropped := collector.store.dropped
        options := collector.exportOptions clock }
      { collector.withStore { collector.inventory.store with arena, dropped := 0 } with
        flushing := true } :=
    { running_eq := represents.running_eq
      settings_eq := represents.settings_eq
      maxSamples_eq := represents.maxSamples_eq
      balanced := balanced
      snapshot_eq := rfl }
  exact exports_of_symbolizeFrom host_fits scene_fits
    ⟨amid, (List.nil_append _).symm, whole, .nil, stored⟩ performed

end HeapSampler
