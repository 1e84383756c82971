import Mathlib
import HeapSampler.Collector.Drive
import HeapSampler.Proofs.Collector.Quiet
import HeapSampler.Proofs.Store.Preserves

/-!
# How a collector stands

What will ever be told of a collector depends on its settings, on the drops that are pending and on
its live samples: on the tags of each and on the places that it has or will get.  Handles, ids and
earlier sizes do not matter.  Calls that are not disturbed by the host lead from one such standing
to the next, whether a flush is under way or not.
-/

namespace HeapSampler

inductive Prospect where
  /-- It has these places or gets them. -/
  | placed (places : List (Option NamedPlace))
  /-- Its backtrace cannot be symbolized. -/
  | failing
  /-- Its backtrace is out for symbolization. -/
  | bare
  deriving DecidableEq, Repr

/-- What there is to tell of a live sample besides its identity and its size. -/
structure View where
  tags : List (Option (String × String))
  prospect : Prospect
  deriving DecidableEq, Repr

def Host.prospect (host : Host) (backtrace : Backtrace) : Prospect :=
  match host.symbolize backtrace with
  | .ok places => .placed (places.map fun place => some place.withName)
  | .error _ => .failing

namespace Sample

def prospect (host : Host) (tables : Tables) (sample : Sample) : Prospect :=
  if sample.isSymbolized then .placed (sample.locations.map tables.place?)
  else
    match sample.backtrace with
    | some backtrace => host.prospect backtrace
    | none => .bare

def view (host : Host) (tables : Tables) (sample : Sample) : View where
  tags := sample.tags.map tables.tag?
  prospect := sample.prospect host tables

end Sample

def Inventory.view (host : Host) (inventory : Inventory) (handle : Handle) : Option View :=
  (inventory.store.sample? handle).map (Sample.view host inventory.tables)

structure Standing where
  running : Bool
  settings : ValidSettings
  sessionStart : Option Nat
  maxSamples : Nat
  dropped : Nat
  live : List (Identity × Option View)

def Collector.standing (host : Host) (collector : Collector) : Standing where
  running := collector.running
  settings := collector.settings
  sessionStart := collector.sessionStart
  maxSamples := collector.store.maxSamples
  dropped := collector.store.dropped
  live := collector.store.live.map fun entry =>
    (entry.1, collector.inventory.view host entry.2)

namespace Standing

def without (standing : Standing) (identity : Identity) : List (Identity × Option View) :=
  standing.live.filter fun entry => entry.1 ≠ identity

def allocated (standing : Standing) (identity : Identity) (view : View) : Standing :=
  if (standing.without identity).length < standing.maxSamples then
    { standing with live := standing.without identity ++ [(identity, some view)] }
  else
    { standing with
      live := standing.without identity
      dropped := (standing.dropped + 1) % (Store.maxDropped + 1) }

def relocated (standing : Standing) (old new : Identity) : Standing :=
  match standing.live.filter fun entry => entry.1 = old with
  | [] => standing
  | moved => { standing with
      live := ((standing.without old).filter fun entry => entry.1 ≠ new) ++
        moved.map fun entry => (new, entry.2) }

/-- The standing after a call other than a flush that was made with this call stack. -/
def next (host : Host) (standing : Standing) (call : Call) (stack : Backtrace) : Standing :=
  match call with
  | .allocate identity tags draw =>
      if standing.running && standing.settings.rate.admits draw then
        standing.allocated identity {
          tags := (overlay standing.settings.settings.globalTags.entries tags).map some
          prospect := host.prospect stack }
      else standing
  | .release identity => { standing with live := standing.without identity }
  | .relocate old new => if old = new then standing else standing.relocated old new
  | .start instant =>
      if standing.running then standing
      else { standing with running := true, sessionStart := some instant, dropped := 0, live := [] }
  | .stop | .retire => { standing with running := false }
  | .configure settings =>
      match settings.validate with
      | .ok valid => { standing with settings := valid, maxSamples := settings.maxSamples }
      | .error _ => standing
  | .setGlobalTags tags =>
      if tags.hasEmptyKey then standing
      else { standing with settings := standing.settings.withGlobalTags tags }
  | .flush _ => standing

end Standing

/-- What a call replies that does not begin a flush, given whether the collector runs. -/
def Call.reply (running : Bool) : Call → Reply
  | .allocate _ _ _ | .release _ | .relocate _ _ => .noted
  | .start _ => .settled (if running then .error .alreadyRunning else .ok ())
  | .stop => .settled (if running then .ok () else .error .notRunning)
  | .configure settings => .settled (settings.validate.mapError .configuration |>.map fun _ => ())
  | .setGlobalTags tags =>
      .settled (if tags.hasEmptyKey then .error (.configuration .emptyTagKey) else .ok ())
  | .flush _ => .flushed (.error .alreadyFlushing)
  | .retire => .settled (.ok ())

variable {host : Host} {before after inventory : Inventory} {leaving held : List Handle}
  {spare : List StringId} {handle : Handle}

/-! ## What stays the same -/

/-- A sample that stays what it is looks the same. -/
theorem Inventory.Preserves.view_eq (balanced : before.Balanced leaving held spare)
    (preserves : before.Preserves after handle) :
    after.view host handle = before.view host handle := by
  obtain ⟨old, new, found, found', keeps⟩ := preserves
  have tags := map_eq_map_of_some (fun tag => balanced.exists_tag found) keeps.tag?_keeps
  have places := map_eq_map_of_some (fun id => balanced.exists_place found) keeps.place?_keeps
  simp only [Inventory.view, found, found', Option.map_some, Sample.view, Sample.prospect,
    keeps.symbolized_eq, keeps.backtrace_eq, keeps.tags_eq, keeps.locations_eq, tags, places]

/-- What is live looks as it did, as far as it is still there. -/
theorem Inventory.Ages.map_view (balanced : before.Balanced leaving held spare)
    {leaving' held' : List Handle} (aged : before.Ages after spare)
    (balanced' : after.Balanced leaving' held' spare) :
    (after.store.live.map fun entry => (entry.1, after.view host entry.2)) =
      after.store.live.map fun entry => (entry.1, before.view host entry.2) := by
  refine List.map_congr_left fun entry listed => ?_
  rw [(aged.preserves_live balanced' entry listed).view_eq balanced]

/-- Interning leaves everything as it looks. -/
theorem map_view_of_extends (balanced : inventory.Balanced leaving held spare) {tables : Tables}
    (extends_ : inventory.tables.Extends tables) :
    (inventory.store.live.map fun entry =>
        (entry.1, Inventory.view host { inventory with tables } entry.2)) =
      inventory.store.live.map fun entry => (entry.1, inventory.view host entry.2) := by
  refine List.map_congr_left fun entry listed => ?_
  obtain ⟨sample, found, -⟩ := balanced.exists_live_sample listed
  have preserves : inventory.Preserves { inventory with tables } entry.2 :=
    Inventory.preserves_of_extends found found extends_
  rw [preserves.view_eq balanced]

theorem map_filter_fst {α β : Type} (entries : List (Identity × α)) (see : α → β)
    (kept : Identity → Bool) :
    ((entries.filter fun entry => kept entry.1).map fun entry => (entry.1, see entry.2)) =
      (entries.map fun entry => (entry.1, see entry.2)).filter fun entry => kept entry.1 := by
  rw [List.filter_map]
  rfl

/-- The one entry with an identity. -/
theorem filter_eq_singleton {live : List (Identity × Handle)} {identity : Identity}
    (nodup : (live.map Prod.fst).Nodup) (listed : (identity, handle) ∈ live) :
    (live.filter fun entry => entry.1 = identity) = [(identity, handle)] := by
  induction live with
  | nil => cases listed
  | cons entry rest ih =>
      rw [List.map_cons, List.nodup_cons] at nodup
      rcases List.mem_cons.mp listed with rfl | later
      · rw [List.filter_cons_of_pos (by simp), List.filter_eq_nil_iff.mpr]
        intro other member same
        exact nodup.1 (List.mem_map.mpr ⟨other, member, of_decide_eq_true same⟩)
      · have apart : entry.1 ≠ identity := by
          rintro rfl
          exact nodup.1 (List.mem_map.mpr ⟨_, later, rfl⟩)
        rw [List.filter_cons_of_neg (by simpa using apart), ih nodup.2 later]

/-! ## Events -/

namespace Collector

variable {collector after : Collector} {identity : Identity} {stack : Backtrace} {reply : Reply}

/-- Events leave everything as it stands but for the live table. -/
theorem standing_of_ages {inventory : Inventory} {held' : List Handle}
    (balanced : collector.inventory.Balanced [] held [])
    (balanced' : inventory.Balanced [] held' []) (aged : collector.inventory.Ages inventory []) :
    Collector.standing host { collector with inventory } =
      { collector.standing host with
        live := inventory.store.live.map fun entry =>
          (entry.1, collector.inventory.view host entry.2) } := by
  simp only [standing, Standing.mk.injEq, true_and]
  exact ⟨aged.maxSamples_eq, aged.dropped_eq, aged.map_view balanced balanced'⟩

theorem standing_of_release (balanced : collector.inventory.Balanced [] held [])
    (released : collector.release identity = .ok after) :
    after.standing host =
      { collector.standing host with live := (collector.standing host).without identity } := by
  obtain ⟨inventory, recorded, balanced', live_eq, aged⟩ := balanced.recordRelease identity
  simp only [release, recorded, bind, Except.bind, pure, Except.pure] at released
  cases released
  rw [standing_of_ages balanced balanced' aged, live_eq]
  exact congrArg (fun live => { collector.standing host with live })
    (map_filter_fst _ _ fun own => own ≠ identity)

theorem standing_of_relocate {old new : Identity}
    (balanced : collector.inventory.Balanced [] held [])
    (relocated : collector.relocate old new = .ok after) :
    after.standing host =
      if old = new then collector.standing host
      else (collector.standing host).relocated old new := by
  obtain ⟨inventory, recorded, balanced', aged, live_eq⟩ := balanced.recordRelocation old new
  simp only [relocate, recorded, bind, Except.bind, pure, Except.pure] at relocated
  cases relocated
  rw [standing_of_ages balanced balanced' aged, live_eq]
  by_cases same : old = new
  · rw [if_pos same, if_pos same]
    rfl
  · rw [if_neg same, if_neg same]
    have moved_eq := map_filter_fst collector.store.live (collector.inventory.view host)
      fun own => own = old
    cases found : collector.inventory.store.handle? old with
    | none =>
        have none_moved : (collector.store.live.filter fun entry => entry.1 = old) = [] := by
          rw [List.filter_eq_nil_iff]
          rintro ⟨own, handle⟩ listed same
          obtain rfl : own = old := of_decide_eq_true same
          exact Inventory.Balanced.handle?_eq_none_iff.mp found handle listed
        rw [none_moved] at moved_eq
        simp only [Standing.relocated, standing, ← moved_eq, List.map_nil]
        rfl
    | some handle =>
        have listed := balanced.handle?_eq_some_iff.mp found
        rw [show (collector.store.live.filter fun entry => entry.1 = old) = _ from
          filter_eq_singleton balanced.identities_nodup listed] at moved_eq
        simp only [Standing.relocated, standing, ← moved_eq, List.map_cons, List.map_nil]
        simp only [Standing.without, Standing.mk.injEq, true_and, List.map_append, List.map_cons,
          List.map_nil, Store.unlist]
        refine congrArg (· ++ _) ?_
        rw [map_filter_fst _ _ fun own => own ≠ new, map_filter_fst _ _ fun own => own ≠ old]
        rfl

section Recording

variable {middle inventory : Inventory} {spare : List StringId}

/-- An allocation that finds no room leaves what is live as it looks. -/
theorem map_view_of_full (balanced : middle.Balanced [] held spare)
    (store_eq : inventory.store = middle.store.recordDrop)
    (keeps : middle.tables.Keeps inventory.tables middle.texts middle.places) :
    (inventory.store.live.map fun entry => (entry.1, inventory.view host entry.2)) =
      middle.store.live.map fun entry => (entry.1, middle.view host entry.2) := by
  rw [show inventory.store.live = middle.store.live by rw [store_eq]; rfl]
  refine List.map_congr_left fun entry listed => ?_
  obtain ⟨sample, found, -⟩ := balanced.exists_live_sample listed
  have remains : inventory.store.sample? entry.2 = some sample := by
    rw [store_eq]
    exact found
  rw [(Inventory.preserves_of_keeps found remains keeps).view_eq balanced]

/-- An allocation that finds room adds its sample and leaves the others as they look. -/
theorem map_view_of_room (balanced : middle.Balanced [] held spare) {arena : Arena}
    {fresh : Handle} {sample : Sample} (unowned : fresh ∉ middle.store.live.map Prod.snd ++ held)
    (reads : ∀ other, arena.get? other =
      if other = fresh then some sample else middle.store.sample? other) :
    let inventory : Inventory := { middle with store :=
      { middle.store with arena, live := middle.store.live ++ [(identity, fresh)] } }
    (inventory.store.live.map fun entry => (entry.1, inventory.view host entry.2)) =
      (middle.store.live.map fun entry => (entry.1, middle.view host entry.2)) ++
        [(identity, some (sample.view host middle.tables))] := by
  intro inventory
  have here : inventory.view host fresh = some (sample.view host middle.tables) :=
    congrArg (Option.map _) ((reads fresh).trans (if_pos rfl))
  rw [show inventory.store.live = middle.store.live ++ [(identity, fresh)] from rfl,
    List.map_append, List.map_singleton, here]
  refine congrArg (· ++ _) (List.map_congr_left fun entry listed => ?_)
  obtain ⟨own, found, -⟩ := balanced.exists_live_sample listed
  have apart : entry.2 ≠ fresh := by
    intro same
    exact unowned (List.mem_append_left _ (same ▸ List.mem_map_of_mem listed))
  have remains : inventory.store.sample? entry.2 = some own :=
    ((reads entry.2).trans (if_neg apart)).trans found
  rw [(Inventory.preserves_of_extends found remains (.refl _)).view_eq balanced]

end Recording

/-- A capture is recorded with the global tags overlaid with its own, or finds no room. -/
theorem standing_of_resumeCapture {tags : List (String × String)}
    (balanced : collector.inventory.Balanced [] held []) (running : collector.running = true)
    (resumed : collector.resumeCapture identity tags stack = .ok after) :
    after.standing host = (collector.standing host).allocated identity {
      tags := (overlay collector.settings.settings.globalTags.entries tags).map some
      prospect := host.prospect stack } := by
  obtain ⟨tables, ids, inventory, result, extends_, stands, spared, recorded, rfl⟩ :=
    exists_recorded balanced running resumed
  obtain ⟨middle, balanced', aged, live_eq, balanced'', outcome⟩ :=
    spared.recordAllocation (.of_eq (List.append_nil _).symm) recorded
  have others : (middle.store.live.map fun entry => (entry.1, middle.view host entry.2)) =
      (collector.standing host).without identity := by
    rw [aged.map_view spared balanced', live_eq]
    exact (map_filter_fst _ _ fun own => own ≠ identity).trans
      (congrArg _ (map_view_of_extends balanced extends_))
  have length_eq := congrArg List.length others
  rw [List.length_map] at length_eq
  have max_eq : middle.store.maxSamples = collector.store.maxSamples := aged.maxSamples_eq
  have dropped_eq : middle.store.dropped = collector.store.dropped := aged.dropped_eq
  rcases outcome with
    ⟨full, -, store_eq, keeps⟩ | ⟨room, -, arena, fresh, unowned, reads, rfl⟩
  · have crowded : ¬((collector.standing host).without identity).length <
        (collector.standing host).maxSamples := by
      change ¬_ < collector.store.maxSamples
      rw [← length_eq, ← max_eq, not_lt]
      exact of_decide_eq_true full
    rw [Standing.allocated, if_neg crowded, ← others, ← map_view_of_full balanced' store_eq keeps]
    have bound_eq : inventory.store.maxSamples = collector.store.maxSamples := by
      rw [store_eq]
      exact max_eq
    have counted : inventory.store.dropped =
        (collector.store.dropped + 1) % (Store.maxDropped + 1) := by
      rw [store_eq, ← dropped_eq]
      rfl
    simp only [standing, Standing.mk.injEq, true_and]
    exact ⟨bound_eq, counted, rfl⟩
  · have few : ((collector.standing host).without identity).length <
        (collector.standing host).maxSamples := by
      change _ < collector.store.maxSamples
      rw [← length_eq, ← max_eq, ← not_le]
      exact of_decide_eq_false room
    have tagged : ids.map middle.tables.tag? =
        (overlay collector.settings.settings.globalTags.entries tags).map some := by
      rw [← stands]
      refine List.map_congr_left fun tag listed => aged.keeps.tag?_eq fun text inside => ?_
      exact List.mem_append_left _ (List.mem_flatMap.mpr ⟨tag, listed, inside⟩)
    have new_view : (Sample.new identity ids stack).view host middle.tables = {
        tags := (overlay collector.settings.settings.globalTags.entries tags).map some
        prospect := host.prospect stack } := by
      rw [← tagged]
      rfl
    rw [Standing.allocated, if_pos few, ← others, ← new_view,
      ← map_view_of_room balanced' unowned reads]
    simp only [standing, Standing.mk.injEq, true_and]
    exact ⟨max_eq, dropped_eq, rfl⟩

/-- No backtrace is asked for when there is no room. -/
theorem standing_of_full {view : View} (full : collector.store.isFull = true)
    (absent : collector.store.contains identity = false) :
    (collector.withStore collector.store.recordDrop).standing host =
      (collector.standing host).allocated identity view := by
  have missing : collector.store.handle? identity = none := by
    simpa [Store.contains] using absent
  have others_eq : (collector.standing host).without identity = (collector.standing host).live := by
    rw [Standing.without, List.filter_eq_self]
    intro other listed
    obtain ⟨⟨own, handle⟩, member, rfl⟩ := List.mem_map.mp listed
    refine decide_eq_true ?_
    rintro rfl
    exact Inventory.Balanced.handle?_eq_none_iff.mp missing handle member
  have crowded : ¬((collector.standing host).without identity).length <
      (collector.standing host).maxSamples := by
    rw [others_eq, not_lt]
    simp only [standing, List.length_map]
    exact of_decide_eq_true full
  rw [Standing.allocated, if_neg crowded, others_eq]
  rfl

theorem standing_of_allocate {tags : List (String × String)} {draw : UInt32}
    (balanced : collector.inventory.Balanced [] held [])
    (performed : driven { host with stack } (.ok (collector.allocate identity tags draw)) =
      .ok (after, reply)) :
    after.standing host =
        (collector.standing host).next host (.allocate identity tags draw) stack ∧
      reply = .noted := by
  unfold allocate at performed
  split at performed
  · rename_i passed
    rw [driven_replied] at performed
    cases performed
    refine ⟨(if_neg ?_).symm, rfl⟩
    simpa [standing, imp_iff_not_or] using passed
  · rename_i sampled
    have admitted : (collector.running && collector.settings.rate.admits draw) = true := by
      simpa [Bool.and_eq_true, imp_iff_not_or] using sampled
    have next_eq : (collector.standing host).next host (.allocate identity tags draw) stack =
        (collector.standing host).allocated identity {
          tags := (overlay collector.settings.settings.globalTags.entries tags).map some
          prospect := host.prospect stack } := if_pos admitted
    rw [next_eq]
    split at performed
    · rename_i full
      rw [driven_replied] at performed
      cases performed
      obtain ⟨packed, absent⟩ := Bool.and_eq_true_iff.mp full
      exact ⟨standing_of_full packed (by simpa using absent), rfl⟩
    · rw [driven_waiting] at performed
      change driven { host with stack }
        ((collector.resumeCapture identity tags stack).map (·, .replied .noted)) = _ at performed
      cases resumed : collector.resumeCapture identity tags stack with
      | error breach => simp [resumed, Except.map] at performed
      | ok next =>
          simp only [resumed, Except.map, driven_replied, Except.ok.injEq,
            Prod.mk.injEq] at performed
          obtain ⟨rfl, rfl⟩ := performed
          exact ⟨standing_of_resumeCapture balanced (Bool.and_eq_true_iff.mp admitted).1 resumed,
            rfl⟩

theorem standing_of_start {instant : Nat} (balanced : collector.inventory.Balanced [] held [])
    (performed : driven { host with stack } (collector.start instant) = .ok (after, reply)) :
    after.standing host = (collector.standing host).next host (.start instant) stack ∧
      reply = Call.reply collector.running (.start instant) := by
  cases went : collector.start instant with
  | error breach => simp [went] at performed
  | ok reached =>
      obtain ⟨next, progress⟩ := reached
      rw [went] at performed
      rcases start_cases balanced went with
        ⟨running, rfl, rfl⟩ | ⟨stopped, rfl, cleared, balanced', live_eq, aged, rfl⟩
      · rw [driven_replied] at performed
        cases performed
        simp [Standing.next, Call.reply, standing, running]
      · rw [driven_waiting] at performed
        simp only [resume, driven_replied, Except.ok.injEq, Prod.mk.injEq] at performed
        obtain ⟨rfl, rfl⟩ := performed
        have bound_eq : cleared.store.maxSamples = collector.store.maxSamples := aged.maxSamples_eq
        constructor
        · simp only [Standing.next, standing, stopped, Bool.false_eq_true, if_false,
            Standing.mk.injEq, true_and]
          refine ⟨bound_eq, rfl, ?_⟩
          change cleared.store.live.map _ = []
          rw [live_eq, List.map_nil]
        · simp [Call.reply, stopped]

/-- Whether it was running or not, a collector that has been stopped does not run. -/
theorem standing_of_halt (host : Host) {refusal : Reply}
    (performed : driven { host with stack }
      (.ok (if collector.running then
          ({ collector with running := false }, .waiting .unsubscribing)
        else (collector, .replied refusal))) = .ok (after, reply)) :
    after.standing host = { collector.standing host with running := false } ∧
      reply = if collector.running then .settled (.ok ()) else refusal := by
  cases running : collector.running with
  | true =>
      rw [running, if_pos rfl, driven_waiting] at performed
      simp only [resume, driven_replied] at performed
      cases performed
      exact ⟨rfl, rfl⟩
  | false =>
      rw [running, if_neg Bool.false_ne_true, driven_replied] at performed
      cases performed
      refine ⟨?_, rfl⟩
      rw [← running]
      rfl

theorem standing_of_configure {settings : Settings} {result : Except CollectorError Unit}
    (configured : collector.configure settings = (after, result)) :
    after.standing host = (collector.standing host).next host (.configure settings) stack ∧
      .settled result = Call.reply collector.running (.configure settings) := by
  unfold configure at configured
  split at configured
  · rename_i cause refused
    cases configured
    simp only [Standing.next, Call.reply, refused, true_and]
    rfl
  · rename_i valid checked
    cases configured
    simp only [Standing.next, Call.reply, checked]
    exact ⟨rfl, rfl⟩

theorem standing_of_setGlobalTags {tags : TagMap} {result : Except CollectorError Unit}
    (replaced : collector.setGlobalTags tags = (after, result)) :
    after.standing host = (collector.standing host).next host (.setGlobalTags tags) stack ∧
      .settled result = Call.reply collector.running (.setGlobalTags tags) := by
  unfold setGlobalTags at replaced
  split at replaced
  · rename_i refused
    cases replaced
    simp [Standing.next, Call.reply, refused]
  · rename_i accepted
    cases replaced
    simp only [Standing.next, Call.reply, accepted, Bool.false_eq_true, if_false, and_true]
    rfl

/--
A call that does not begin a flush, driven undisturbed to its reply, leads from one standing to the
next, also while a flush is under way.
-/
theorem standing_of_perform {call : Call} (balanced : collector.inventory.Balanced [] held [])
    (passing : ∀ clock, call = .flush clock → collector.flushing = true)
    (performed : perform (quiet { host with stack }) collector call = .ok (after, reply)) :
    after.standing host = (collector.standing host).next host call stack ∧
      reply = call.reply collector.running := by
  rw [perform_quiet] at performed
  cases call with
  | allocate identity tags draw => exact standing_of_allocate balanced performed
  | release identity =>
      cases released : collector.release identity with
      | error breach => simp [Collector.call, released, Except.map] at performed
      | ok next =>
          simp only [Collector.call, released, Except.map, driven_replied] at performed
          cases performed
          exact ⟨standing_of_release balanced released, rfl⟩
  | relocate old new =>
      cases relocated : collector.relocate old new with
      | error breach => simp [Collector.call, relocated, Except.map] at performed
      | ok next =>
          simp only [Collector.call, relocated, Except.map, driven_replied] at performed
          cases performed
          exact ⟨standing_of_relocate balanced relocated, rfl⟩
  | start instant => exact standing_of_start balanced performed
  | stop =>
      obtain ⟨standing_eq, reply_eq⟩ := standing_of_halt host performed
      refine ⟨standing_eq, reply_eq.trans ?_⟩
      simp only [Call.reply]
      exact (apply_ite _ _ _ _).symm
  | configure settings =>
      simp only [Collector.call, driven_replied] at performed
      cases performed
      exact standing_of_configure rfl
  | setGlobalTags tags =>
      simp only [Collector.call, driven_replied] at performed
      cases performed
      exact standing_of_setGlobalTags rfl
  | flush clock =>
      simp only [Collector.call, flush, passing clock rfl, if_true, driven_replied] at performed
      cases performed
      exact ⟨rfl, rfl⟩
  | retire =>
      obtain ⟨standing_eq, reply_eq⟩ := standing_of_halt host performed
      refine ⟨standing_eq, reply_eq.trans ?_⟩
      simp only [Call.reply]
      split <;> rfl

end Collector

end HeapSampler
