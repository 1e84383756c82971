import Mathlib
import HeapSampler.Proofs.Collector.Mirror

/-!
# Undisturbed calls

A call whose host makes no calls of its own leads a collector from one scene to the next.
-/

namespace HeapSampler

variable {host : Host} {scene : Scene} {collector after : Collector} {stack : Backtrace}
  {reply : Reply}

namespace Collector

def driven (host : Host) (stretch : Stretch) : Except Breach (Collector × Reply) :=
  match stretch with
  | .error breach => .error breach
  | .ok (collector, progress) => drive (quiet host) collector progress

@[simp]
theorem driven_replied (host : Host) (collector : Collector) (reply : Reply) :
    driven host (.ok (collector, .replied reply)) = .ok (collector, reply) := by
  rw [driven, drive]
  rfl

@[simp]
theorem driven_error (host : Host) (breach : Breach) :
    driven host (.error breach) = .error breach := rfl

theorem driven_waiting (host : Host) (collector : Collector) (suspended : Suspended) :
    driven host (.ok (collector, .waiting suspended)) =
      driven host (collector.resume suspended (host.answer suspended.request)) := by
  rw [driven, drive]
  simp only [quiet, bind]
  split
  · rename_i breach failed
    rw [failed]
    rfl
  · rename_i next progress went
    rw [went]
    rfl

theorem perform_quiet (host : Host) (collector : Collector) (call : Call) :
    perform (quiet host) collector call = driven host (collector.call call) := rfl

/-! ## The samples of an undisturbed flush -/

section Flush

variable {cycle : Cycle} {included handles held : List Handle} {handle : Handle} {sample : Sample}

theorem apart_of_live {entry : Identity × Handle} {passed left : List (Identity × Handle)}
    (balanced : collector.inventory.Balanced [] held [])
    (live_eq : collector.store.live = passed ++ entry :: left) :
    entry.2 ∉ passed.map Prod.snd ∧ entry.2 ∉ left.map Prod.snd := by
  have distinct := balanced.handles_nodup
  rw [List.append_nil, show collector.inventory.store.live = _ from live_eq, List.map_append,
    List.map_cons, List.nodup_middle, List.nodup_cons, List.mem_append, not_or] at distinct
  exact distinct.1

/-- A live sample is passed over, or the host is asked for the places of its backtrace. -/
theorem symbolizeFrom_cases (found : collector.store.sample? handle = some sample)
    (unreleased : sample.isReleased = false)
    (went : driven host (collector.symbolizeFrom cycle (handle :: handles)) =
      .ok (after, reply)) :
    (sample.backtrace = none ∨ sample.isSymbolized = true) ∧
        driven host (collector.symbolizeFrom cycle handles) = .ok (after, reply) ∨
      ∃ backtrace store, sample.backtrace = some backtrace ∧ sample.isSymbolized = false ∧
        collector.store.modify handle Sample.withoutBacktrace = .ok store ∧
        driven host ((collector.withStore store).resumeSymbolize cycle handle backtrace handles
          (host.symbolize backtrace)) = .ok (after, reply) := by
  rw [symbolizeFrom, found] at went
  cases present : sample.backtrace with
  | none => exact .inl ⟨.inl rfl, by simpa only [present] using went⟩
  | some backtrace =>
      cases symbolized : sample.isSymbolized with
      | true =>
          refine .inl ⟨.inr rfl, ?_⟩
          simpa only [present, symbolized, Bool.or_true, if_true] using went
      | false =>
          simp only [present, unreleased, symbolized, Bool.or_self, Bool.false_eq_true, if_false,
            bind, Except.bind, pure, Except.pure] at went
          split at went
          · cases went
          · rename_i store modified
            rw [driven_waiting] at went
            exact .inr ⟨backtrace, store, rfl, rfl, modified, went⟩

/-- A live sample is passed over, or it has its places and the host has the size of its object. -/
theorem measureFrom_cases {identity : Identity}
    (found : collector.store.sample? handle = some sample)
    (identity_eq : sample.identity = identity)
    (unreleased : sample.isReleased = false)
    (went : driven host (collector.measureFrom cycle included (handle :: handles)) =
      .ok (after, reply)) :
    (sample.isSymbolized = false ∨ host.objectSize identity = none) ∧
        driven host (collector.measureFrom cycle included handles) = .ok (after, reply) ∨
      ∃ size store, sample.isSymbolized = true ∧ host.objectSize identity = some size ∧
        collector.store.modify handle (·.measured size) = .ok store ∧
        driven host ((collector.withStore store).measureFrom cycle (handle :: included) handles) =
          .ok (after, reply) := by
  rw [measureFrom] at went
  cases symbolized : sample.isSymbolized with
  | false =>
      have unmeasurable : collector.measurable? handle = none := by
        simp [measurable?, found, symbolized]
      rw [unmeasurable] at went
      exact .inl ⟨.inl rfl, went⟩
  | true =>
      have measurable : collector.measurable? handle = some identity := by
        simp [measurable?, found, symbolized, identity_eq]
      rw [measurable, driven_waiting] at went
      change driven host (collector.resumeMeasure cycle included handle handles
        (host.objectSize identity)) = _ at went
      cases told : host.objectSize identity with
      | none =>
          simp only [resumeMeasure, told, found] at went
          exact .inl ⟨.inr rfl, went⟩
      | some size =>
          simp only [resumeMeasure, told, found, unreleased, Bool.false_eq_true, if_false, bind,
            Except.bind] at went
          split at went
          · cases went
          · rename_i store modified
            exact .inr ⟨size, store, rfl, rfl, modified, went⟩

theorem finishes_of_driven
    (went : driven host (collector.finish cycle included) = .ok (after, reply)) :
    Finishes collector cycle included after (.replied reply) := by
  cases ended : collector.finish cycle included with
  | error breach => simp [ended] at went
  | ok reached =>
      obtain ⟨last, progress⟩ := reached
      rw [ended] at went
      cases id (finishes ended) with
      | exported =>
          rw [driven_replied] at went
          cases went
          exact finishes ended
      | failed =>
          rw [driven_replied] at went
          cases went
          exact finishes ended

end Flush

end Collector

/-- A collector is in the state that its scene tells. -/
structure Represents (host : Host) (scene : Scene) (collector : Collector) : Prop where
  running_eq : collector.running = scene.running
  settings_eq : collector.settings = scene.settings
  maxSamples_eq : collector.store.maxSamples = scene.settings.settings.maxSamples
  idle : collector.flushing = false
  balanced : collector.inventory.Balanced [] [] []
  mirrors : Mirrors host collector.inventory collector.store.live scene.live

namespace Represents

variable {identity : Identity}

theorem absent (represents : Represents host scene collector)
    (missing : collector.store.handle? identity = none) :
    ∀ object ∈ scene.live, object.identity ≠ identity := by
  rintro object listed rfl
  have member : object.identity ∈ collector.store.live.map Prod.fst := by
    rw [represents.mirrors.identities_perm.mem_iff]
    exact List.mem_map_of_mem listed
  obtain ⟨⟨own, handle⟩, entry_listed, same⟩ := List.mem_map.mp member
  refine Inventory.Balanced.handle?_eq_none_iff.mp missing handle ?_
  rw [← same]
  exact entry_listed

theorem release (represents : Represents host scene collector)
    (released : collector.release identity = .ok after) :
    Represents host { scene with live := scene.without identity } after := by
  obtain ⟨inventory, recorded, balanced, live_eq, aged⟩ :=
    represents.balanced.recordRelease identity
  simp only [Collector.release, recorded, bind, Except.bind, pure, Except.pure] at released
  cases released
  refine { represents with maxSamples_eq := ?_, balanced, mirrors := ?_ }
  · exact aged.maxSamples_eq.trans represents.maxSamples_eq
  · have struck := represents.mirrors.strike (fun own => own ≠ identity)
    change Mirrors host inventory inventory.store.live _
    have same : inventory.store.live = collector.store.live.filter fun entry =>
        decide (entry.1 ≠ identity) := live_eq
    rw [← same] at struck
    exact struck.mono (aged.preserves_live balanced)

/-- Samples may age as long as what is live stays live. -/
theorem of_ages (represents : Represents host scene collector) {inventory : Inventory}
    (balanced : inventory.Balanced [] [] []) (aged : collector.inventory.Ages inventory [])
    (live_eq : inventory.store.live = collector.store.live) :
    Represents host scene { collector with inventory } :=
  { represents with
    maxSamples_eq := aged.maxSamples_eq.trans represents.maxSamples_eq
    balanced
    mirrors := by
      have mirrors := represents.mirrors
      rw [← live_eq] at mirrors
      exact mirrors.mono (aged.preserves_live balanced) }

/-- A live object gets a new identity, and whatever had that one before is gone. -/
theorem moved (represents : Represents host scene collector) {old new : Identity} {handle : Handle}
    {inventory : Inventory} (balanced : inventory.Balanced [] [] [])
    (aged : collector.inventory.Ages inventory [])
    (found : collector.store.handle? old = some handle)
    (live_eq : inventory.store.live =
      (collector.store.unlist old |>.unlist new).live ++ [(new, handle)]) :
    Represents host (scene.relocated old new) { collector with inventory } := by
  have listed := represents.balanced.handle?_eq_some_iff.mp found
  obtain ⟨object, stored, object_found⟩ :=
    represents.mirrors.exists_object represents.balanced.identities_nodup listed
  have moved : Stored host collector.inventory false { object with identity := new }
      (new, handle) := ⟨rfl, stored.2⟩
  have mirrors := ((represents.mirrors.strike (fun own => own ≠ old)).strike
    (fun own => own ≠ new)).append moved
  have preserves := aged.preserves_live balanced
  rw [Scene.relocated, object_found]
  refine { represents with
    maxSamples_eq := aged.maxSamples_eq.trans represents.maxSamples_eq
    balanced
    mirrors := ?_ }
  change Mirrors host inventory inventory.store.live _
  rw [live_eq] at preserves ⊢
  exact mirrors.mono preserves

theorem relocate (represents : Represents host scene collector) {old new : Identity}
    (relocated : collector.relocate old new = .ok after) :
    Represents host (scene.next (.relocate old new) stack) after := by
  obtain ⟨inventory, recorded, balanced, aged, live_eq⟩ :=
    represents.balanced.recordRelocation old new
  simp only [Collector.relocate, recorded, bind, Except.bind, pure, Except.pure] at relocated
  cases relocated
  by_cases same : old = new
  · rw [if_pos same] at live_eq
    simpa only [Scene.next, if_pos same] using represents.of_ages balanced aged live_eq
  · rw [if_neg same] at live_eq
    simp only [Scene.next, if_neg same]
    cases found : collector.inventory.store.handle? old with
    | none =>
        rw [found] at live_eq
        have absent : scene.live.find? (fun object => object.identity = old) = none := by
          rw [List.find?_eq_none]
          intro object listed
          simpa using represents.absent found object listed
        rw [Scene.relocated, absent]
        exact represents.of_ages balanced aged live_eq
    | some handle =>
        rw [found] at live_eq
        exact represents.moved balanced aged found live_eq

theorem start (represents : Represents host scene collector) {instant : Nat}
    (performed : Collector.driven { host with stack } (collector.start instant) =
      .ok (after, reply)) :
    Represents host (scene.next (.start instant) stack) after := by
  cases went : collector.start instant with
  | error breach => simp [went] at performed
  | ok reached =>
      obtain ⟨next, progress⟩ := reached
      rw [went] at performed
      rcases Collector.start_cases represents.balanced went with
        ⟨running, rfl, rfl⟩ | ⟨stopped, rfl, cleared, balanced, live_eq, aged, rfl⟩
      · rw [Collector.driven_replied] at performed
        cases performed
        rw [represents.running_eq] at running
        simpa only [Scene.next, running, if_true] using represents
      · rw [Collector.driven_waiting] at performed
        simp only [Collector.resume, Collector.driven_replied, Except.ok.injEq,
          Prod.mk.injEq] at performed
        obtain ⟨rfl, -⟩ := performed
        rw [represents.running_eq] at stopped
        simp only [Scene.next, stopped, Bool.false_eq_true, if_false]
        exact {
          running_eq := rfl
          settings_eq := represents.settings_eq
          maxSamples_eq := aged.maxSamples_eq.trans represents.maxSamples_eq
          idle := represents.idle
          balanced := { balanced with }
          mirrors := by
            change Mirrors host _ cleared.store.live []
            rw [live_eq]
            exact ⟨[], .nil, .nil⟩ }

/-- Whether it was running or not, a collector that has been stopped does not run. -/
theorem halt (represents : Represents host scene collector) {refusal : Reply}
    (performed : Collector.driven { host with stack }
      (.ok (if collector.running then
          ({ collector with running := false }, .waiting .unsubscribing)
        else (collector, .replied refusal))) = .ok (after, reply)) :
    Represents host { scene with running := false } after := by
  split at performed
  · rw [Collector.driven_waiting] at performed
    simp only [Collector.resume, Collector.driven_replied] at performed
    cases performed
    exact { represents with running_eq := rfl, balanced := { represents.balanced with } }
  · rename_i idle
    rw [Collector.driven_replied] at performed
    cases performed
    rw [represents.running_eq, Bool.not_eq_true] at idle
    rw [← idle]
    exact represents

theorem configure (represents : Represents host scene collector) {settings : Settings}
    {result : Except CollectorError Unit}
    (configured : collector.configure settings = (after, result)) :
    Represents host (scene.next (.configure settings) stack) after := by
  unfold Collector.configure at configured
  split at configured
  · rename_i cause refused
    cases configured
    simpa only [Scene.next, refused] using represents
  · rename_i valid checked
    cases configured
    simp only [Scene.next, checked]
    exact { represents with
      settings_eq := rfl
      maxSamples_eq := by rw [settings_of_validate checked]; rfl
      balanced := { represents.balanced with }
      mirrors := represents.mirrors }

theorem setGlobalTags (represents : Represents host scene collector) {tags : TagMap}
    {result : Except CollectorError Unit}
    (replaced : collector.setGlobalTags tags = (after, result)) :
    Represents host (scene.next (.setGlobalTags tags) stack) after := by
  unfold Collector.setGlobalTags at replaced
  split at replaced
  · rename_i refused
    cases replaced
    simpa only [Scene.next, refused, if_true] using represents
  · rename_i accepted
    cases replaced
    simp only [Scene.next, accepted]
    exact { represents with
      settings_eq := congrArg (·.withGlobalTags tags) represents.settings_eq
      maxSamples_eq := represents.maxSamples_eq }

/-! ## Allocations -/

/-- What is live mirrors the same objects when tables are extended. -/
theorem mirrors_of_extends (represents : Represents host scene collector) {tables : Tables}
    (extends_ : collector.tables.Extends tables) :
    Mirrors host { collector.inventory with tables } collector.store.live scene.live := by
  refine represents.mirrors.mono fun entry listed => ?_
  obtain ⟨sample, found, -⟩ := represents.balanced.exists_live_sample listed
  exact Inventory.preserves_of_extends found found extends_

section Recording

variable {middle inventory : Inventory} {objects : List LiveObject} {held : List Handle}
  {spare : List StringId}

/-- An allocation that finds no room leaves the other objects as they are. -/
theorem mirrors_of_full (mirrors : Mirrors host middle middle.store.live objects)
    (balanced : middle.Balanced [] held spare)
    (store_eq : inventory.store = middle.store.recordDrop)
    (keeps : middle.tables.Keeps inventory.tables middle.texts middle.places) :
    Mirrors host inventory inventory.store.live objects := by
  rw [store_eq]
  refine mirrors.mono fun entry listed => ?_
  obtain ⟨sample, found, -⟩ := balanced.exists_live_sample listed
  refine Inventory.preserves_of_keeps found ?_ keeps
  rw [store_eq]
  exact found

/-- An allocation that finds room adds its object and leaves the others as they are. -/
theorem mirrors_of_room (mirrors : Mirrors host middle middle.store.live objects)
    (balanced : middle.Balanced [] held spare) {arena : Arena} {fresh : Handle}
    {object : LiveObject} {sample : Sample}
    (unowned : fresh ∉ middle.store.live.map Prod.snd ++ held)
    (reads : ∀ other, arena.get? other =
      if other = fresh then some sample else middle.store.sample? other)
    (tagged : Tagged middle.tables object sample)
    (captured : Captured host false object sample) :
    Mirrors host
      { middle with store :=
        { middle.store with arena, live := middle.store.live ++ [(object.identity, fresh)] } }
      (middle.store.live ++ [(object.identity, fresh)]) (objects ++ [object]) := by
  refine (mirrors.mono fun entry listed => ?_).append ?_
  · obtain ⟨own, found, -⟩ := balanced.exists_live_sample listed
    have apart : entry.2 ≠ fresh := by
      intro same
      exact unowned (List.mem_append_left _ (same ▸ List.mem_map_of_mem listed))
    exact Inventory.preserves_of_extends found
      (((reads entry.2).trans (if_neg apart)).trans found) (.refl _)
  · exact ⟨rfl, sample, (reads fresh).trans (if_pos rfl), tagged, .inl captured⟩

end Recording

/-- An allocation whose tags are interned becomes a live object, or finds no room for it. -/
theorem record (represents : Represents host scene collector) {tables : Tables} {ids : List Tag}
    {pairs : List (String × String)} {object : LiveObject} {inventory : Inventory}
    {result : Except Dropped Unit} (extends_ : collector.tables.Extends tables)
    (counted : tables.Balanced (ids.flatMap Tag.texts ++ collector.inventory.texts)
      collector.inventory.places)
    (stands : ids.map tables.tag? = pairs.map some) (overlaid : pairs.Perm object.tags.entries)
    (recorded : Inventory.recordAllocation { collector.inventory with tables } object.identity ids
      object.backtrace = .ok (inventory, result)) :
    Represents host (scene.allocated object) { collector with inventory } := by
  have spared : Inventory.Balanced { collector.inventory with tables } [] []
      (ids.flatMap Tag.texts) := { represents.balanced with tables := counted }
  obtain ⟨middle, balanced, aged, live_eq, balanced', outcome⟩ :=
    spared.recordAllocation (.of_eq (List.append_nil _).symm) recorded
  have struck : Mirrors host middle middle.store.live (scene.without object.identity) := by
    have kept := (represents.mirrors_of_extends extends_).strike (fun own => own ≠ object.identity)
    have preserves := aged.preserves_live balanced
    rw [live_eq] at preserves ⊢
    exact kept.mono preserves
  have count_eq := aged.maxSamples_eq.trans represents.maxSamples_eq
  simp only [Scene.allocated]
  rcases outcome with ⟨full, -, store_eq, keeps⟩ | ⟨room, -, arena, fresh, unowned, reads, rfl⟩
  · have crowded :
        ¬(scene.without object.identity).length < scene.settings.settings.maxSamples := by
      rw [← struck.length_eq, ← count_eq, not_lt]
      exact of_decide_eq_true full
    rw [if_neg crowded]
    exact { represents with
      maxSamples_eq := (congrArg Store.maxSamples store_eq).trans count_eq
      balanced := balanced'
      mirrors := mirrors_of_full struck balanced store_eq keeps }
  · have few : (scene.without object.identity).length < scene.settings.settings.maxSamples := by
      rw [← struck.length_eq, ← count_eq, ← not_le]
      exact of_decide_eq_false room
    have tagged : ids.map middle.tables.tag? = pairs.map some := by
      rw [← stands]
      refine List.map_congr_left fun tag listed => aged.keeps.tag?_eq fun text inside => ?_
      exact List.mem_append_left _ (List.mem_flatMap.mpr ⟨tag, listed, inside⟩)
    rw [if_pos few]
    exact { represents with
      maxSamples_eq := count_eq
      balanced := balanced'
      mirrors := mirrors_of_room struck balanced unowned reads ⟨pairs, overlaid, tagged⟩
        ⟨rfl, rfl, fun impossible => absurd impossible Bool.false_ne_true⟩ }

/-- A capture is recorded with the global tags overlaid with its own. -/
theorem capture (represents : Represents host scene collector)
    {tags : List (String × String)} (running : collector.running = true)
    (resumed : collector.resumeCapture identity tags stack = .ok after) :
    Represents host (scene.allocated {
      identity
      backtrace := stack
      tags := scene.settings.settings.globalTags.overlaid tags }) after := by
  obtain ⟨tables, ids, inventory, result, extends_, stands, spared, recorded, rfl⟩ :=
    Collector.exists_recorded represents.balanced running resumed
  have overlaid : (overlay collector.settings.settings.globalTags.entries tags).Perm
      (scene.settings.settings.globalTags.overlaid tags).entries := by
    rw [represents.settings_eq]
    exact overlay_perm tags (.refl _)
  exact represents.record extends_ spared.tables stands overlaid recorded

/-- No backtrace is asked for when there is no room. -/
theorem overflow (represents : Represents host scene collector) {object : LiveObject}
    (full : collector.store.isFull = true)
    (absent : collector.store.contains object.identity = false) :
    Represents host (scene.allocated object) (collector.withStore collector.store.recordDrop) := by
  have missing : collector.store.handle? object.identity = none := by
    simpa [Store.contains] using absent
  have others_eq : scene.without object.identity = scene.live := by
    rw [Scene.without, List.filter_eq_self]
    intro other listed
    exact decide_eq_true (represents.absent missing other listed)
  have crowded : ¬scene.live.length < scene.settings.settings.maxSamples := by
    rw [← represents.mirrors.length_eq, ← represents.maxSamples_eq, not_lt]
    exact of_decide_eq_true full
  simp only [Scene.allocated, others_eq, if_neg crowded]
  exact { represents with balanced := { represents.balanced with }, mirrors := represents.mirrors }

theorem allocate (represents : Represents host scene collector)
    {tags : List (String × String)} {draw : UInt32}
    (performed : Collector.driven { host with stack }
      (.ok (collector.allocate identity tags draw)) = .ok (after, reply)) :
    Represents host (scene.next (.allocate identity tags draw) stack) after := by
  unfold Collector.allocate at performed
  simp only [Scene.next, ← represents.running_eq, ← represents.settings_eq]
  split at performed
  · rename_i passed
    rw [Collector.driven_replied] at performed
    cases performed
    have unsampled : ¬(collector.running && collector.settings.rate.admits draw) = true := by
      simpa [Bool.and_eq_true, imp_iff_not_or] using passed
    rw [if_neg unsampled]
    exact represents
  · rename_i sampled
    have admitted : (collector.running && collector.settings.rate.admits draw) = true := by
      simpa [Bool.and_eq_true, imp_iff_not_or] using sampled
    rw [if_pos admitted, represents.settings_eq]
    split at performed
    · rename_i full
      rw [Collector.driven_replied] at performed
      cases performed
      obtain ⟨packed, absent⟩ := Bool.and_eq_true_iff.mp full
      exact represents.overflow packed (by simpa using absent)
    · rw [Collector.driven_waiting] at performed
      change Collector.driven { host with stack }
        ((collector.resumeCapture identity tags stack).map (·, .replied .noted)) = _ at performed
      cases resumed : collector.resumeCapture identity tags stack with
      | error breach => simp [resumed, Except.map] at performed
      | ok next =>
          simp only [resumed, Except.map, Collector.driven_replied, Except.ok.injEq,
            Prod.mk.injEq] at performed
          obtain ⟨rfl, -⟩ := performed
          exact represents.capture (Bool.and_eq_true_iff.mp admitted).1 resumed

end Represents

end HeapSampler
