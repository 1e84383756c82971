import Mathlib
import HeapSampler.Proofs.Collector.Accounts
import HeapSampler.Proofs.Collector.Drops
import HeapSampler.Proofs.Collector.Releases
import HeapSampler.Proofs.Export.SelfContained

/-!
# Where the samples of a snapshot go

On every run each sample of the snapshot of a flush meets one of three fates.  It is skipped and has
its backtrace back; or it is exported with the size that this flush has been told; or it was
released before its turn to be measured was over, or its object has no size.
-/

namespace HeapSampler

namespace Moment

def answered? {α : Type} (moment : Moment)
    (read : (suspended : Suspended) → suspended.request.Answer → Option α) : Option α :=
  match moment.move, moment.before.waiting with
  | .answer host, suspended :: _ => read suspended (host.answer suspended.request)
  | _, _ => none

/-- The samples that the flush which goes on has had their turn to be measured at this moment. -/
def concludes (moment : Moment) : List Handle :=
  match moment.move, moment.before.waiting with
  | .answer _, suspended :: _ =>
      suspended.unmeasured.filter fun handle => handle ∉ moment.progress.unmeasured
  | _, _ => []

end Moment

/-- The moments since the latest flush began, the latest one in front. -/
def sinceFlush (history : List Moment) : List Moment :=
  history.takeWhile fun moment => !moment.beginsFlush

/-- The samples that the host had no places for, with their backtraces, the latest one in front. -/
def latestSkipped (history : List Moment) : List (Handle × Backtrace) :=
  (sinceFlush history).filterMap fun moment => moment.answered? Suspended.unplaced?

/-- The samples to be exported, with the sizes that the host has told, the latest one in front. -/
def latestSized (history : List Moment) : List (Handle × UInt64) :=
  (sinceFlush history).filterMap fun moment => moment.answered? moment.before.collector.sized?

/--
Why a sample of the snapshot is neither skipped nor exported: since the flush began it was released,
before its turn to be measured came or while its object was being measured, or its object has no
size.
-/
def Excused (history : List Moment) (handle : Handle) : Prop :=
  ∃ moment ∈ sinceFlush history, handle ∈ moment.concludes ∧
    (moment.before.collector.hasReleased handle = true ∧
        (∃ earlier ∈ sinceFlush history, earlier.releases handle = true) ∨
      moment.answered? Suspended.unmeasurable? = some handle)

variable {settings : Settings} {history : List Moment} {machine after : Machine} {move : Move}
  {progress : Progress} {handle : Handle} {moment : Moment}

theorem Moment.map_answered? {α β : Type} (moment : Moment) (f : α → β)
    (read : (suspended : Suspended) → suspended.request.Answer → Option α) :
    (moment.answered? read).map f =
      moment.answered? fun suspended answer => (read suspended answer).map f := by
  unfold answered?
  split
  · rfl
  · rfl

theorem Moment.measured?_eq (moment : Moment) :
    moment.measured? = (moment.answered? moment.before.collector.sized?).map Prod.fst := by
  simp only [map_answered?, Collector.map_sized?]
  rfl

/-- What has nothing to do with a flush brings it no answer. -/
theorem Moment.answered?_eq_none {α : Type}
    {read : (suspended : Suspended) → suspended.request.Answer → Option α}
    (unread : ∀ suspended answer, suspended.cycle? = none → read suspended answer = none)
    (foreign : machine.Foreign move) :
    Moment.answered? ⟨machine, move, progress, after⟩ read = none := by
  cases foreign with
  | call passing => rfl
  | rehash => rfl
  | @answer host suspended outer waiting outside =>
      simp only [answered?, waiting]
      exact unread suspended _ outside

theorem sinceFlush_of_begins (begins : moment.beginsFlush = true) :
    sinceFlush (moment :: history) = [] := by
  rw [sinceFlush, List.takeWhile_cons_of_neg (by simp [begins])]

theorem sinceFlush_cons (other : moment.beginsFlush = false) :
    sinceFlush (moment :: history) = moment :: sinceFlush history := by
  rw [sinceFlush, List.takeWhile_cons_of_pos (by simp [other])]
  rfl

theorem latestSkipped_cons (other : moment.beginsFlush = false) :
    latestSkipped (moment :: history) =
      (moment.answered? Suspended.unplaced?).toList ++ latestSkipped history := by
  rw [latestSkipped, sinceFlush_cons other]
  cases found : moment.answered? Suspended.unplaced? with
  | none => exact List.filterMap_cons_none found
  | some entry => exact List.filterMap_cons_some found

theorem latestSized_cons (other : moment.beginsFlush = false) :
    latestSized (moment :: history) =
      (moment.answered? moment.before.collector.sized?).toList ++ latestSized history := by
  rw [latestSized, sinceFlush_cons other]
  cases found : moment.answered? moment.before.collector.sized? with
  | none => exact List.filterMap_cons_none found
  | some entry => exact List.filterMap_cons_some found

theorem latestSnapshot_cons (other : moment.beginsFlush = false) :
    latestSnapshot (moment :: history) = latestSnapshot history := by
  rw [latestSnapshot, List.find?_cons_of_neg (by rw [other]; exact Bool.false_ne_true)]
  rfl

theorem map_latestSized (history : List Moment) :
    (latestSized history).map Prod.fst = latestMeasured history := by
  induction history with
  | nil => rfl
  | cons moment earlier ih =>
      rw [latestMeasured]
      split
      · rename_i begins
        rw [latestSized, sinceFlush_of_begins begins]
        rfl
      · rename_i other
        rw [latestSized_cons (Bool.not_eq_true _ |>.mp other), List.map_append, ih,
          Moment.measured?_eq, Option.toList_map]

theorem Excused.cons (excused : Excused history handle) (other : moment.beginsFlush = false) :
    Excused (moment :: history) handle := by
  obtain ⟨own, listed, concluded, cause⟩ := excused
  rw [Excused, sinceFlush_cons other]
  refine ⟨own, List.mem_cons_of_mem _ listed, concluded, cause.imp_left ?_⟩
  exact And.imp_right fun ⟨earlier, inside, releases⟩ =>
    ⟨earlier, List.mem_cons_of_mem _ inside, releases⟩

/-- As long as nothing leaves the live table nothing is released. -/
theorem Machine.Sound.hasReleased_of_live_eq (sound : machine.Sound) (sound_after : after.Sound)
    (live_eq : after.collector.store.live = machine.collector.store.live)
    (present : ∃ sample, machine.collector.store.sample? handle = some sample)
    (released : after.collector.hasReleased handle = true) :
    machine.collector.hasReleased handle = true := by
  obtain ⟨sample, found, gone⟩ := Option.any_eq_true _ _ |>.mp released
  obtain ⟨old, before⟩ := present
  rw [sound_after.isReleased_iff found, live_eq, ← sound.isReleased_iff before] at gone
  exact (Collector.hasReleased_eq before).trans gone

/-- What a waiting flush has done so far, and why samples of its snapshot are released. -/
structure Conducted (history : List Moment) (machine : Machine) : Prop where
  backed : machine.collector.Backed (machine.waiting.filterMap Suspended.out?)
  pending : ∀ suspended ∈ machine.waiting, ∀ cycle, suspended.cycle? = some cycle →
    machine.collector.Pending (latestSnapshot history) (latestSkipped history)
      (latestSized history) (Excused history) suspended cycle
  released_since : machine.collector.flushing = true → ∀ handle ∈ latestSnapshot history,
    machine.collector.hasReleased handle = true →
      ∃ moment ∈ sinceFlush history, moment.releases handle = true

namespace Conducted

theorem out?_eq_none {suspended : Suspended} (outside : suspended.cycle? = none) :
    suspended.out? = none := by
  cases suspended with
  | symbolizing => cases outside
  | measuring => rfl
  | capturing => rfl
  | subscribing => rfl
  | unsubscribing => rfl

theorem filterMap_out?_eq_nil {outer : List Suspended}
    (outside : outer.filterMap Suspended.cycle? = []) : outer.filterMap Suspended.out? = [] :=
  List.filterMap_eq_nil_iff.mpr fun suspended listed =>
    out?_eq_none (List.filterMap_eq_nil_iff.mp outside suspended listed)

theorem filterMap_out?_cons (suspended : Suspended) {outer : List Suspended}
    (outside : outer.filterMap Suspended.cycle? = []) :
    (suspended :: outer).filterMap Suspended.out? = suspended.out?.toList := by
  rw [List.filterMap_cons, filterMap_out?_eq_nil outside]
  cases suspended.out? with
  | none => rfl
  | some handle => rfl

theorem of_conducts {outer : List Suspended} (outside : outer.filterMap Suspended.cycle? = [])
    (waiting_eq : after.waiting = progress.onto outer)
    (conducts : Collector.Conducts (latestSnapshot history) (latestSkipped history)
      (latestSized history) (Excused history) after.collector progress)
    (released_since : after.collector.flushing = true → ∀ handle ∈ latestSnapshot history,
      after.collector.hasReleased handle = true →
        ∃ moment ∈ sinceFlush history, moment.releases handle = true) :
    Conducted history after where
  backed := by
    rw [waiting_eq]
    cases progress with
    | replied reply =>
        rw [Progress.onto, filterMap_out?_eq_nil outside]
        exact conducts.1
    | waiting suspended =>
        rw [Progress.onto, filterMap_out?_cons suspended outside]
        exact conducts.1
  pending suspended member cycle inside := by
    rw [progress.eq_waiting_of_mem_onto outside (waiting_eq ▸ member) inside] at conducts
    obtain ⟨-, own, own_inside, pending⟩ := conducts
    cases inside.symm.trans own_inside
    exact pending
  released_since := released_since

/-- The snapshot of the flush under way has its samples. -/
theorem snapshot_subset (traced : Traced history machine) (sound : machine.Sound)
    (flushing : machine.collector.flushing = true) : latestSnapshot history ⊆ machine.held := by
  obtain ⟨suspended, cycle, waits, inside, owned⟩ := sound.exists_waiting flushing
  rw [← traced.snapshot_eq suspended waits cycle inside]
  exact owned

theorem unplaced?_eq_none (suspended : Suspended) (answer : suspended.request.Answer)
    (outside : suspended.cycle? = none) : suspended.unplaced? answer = none := by
  cases suspended with
  | symbolizing => cases outside
  | measuring => rfl
  | capturing => rfl
  | subscribing => rfl
  | unsubscribing => rfl

theorem sized?_eq_none (collector : Collector) (suspended : Suspended)
    (answer : suspended.request.Answer) (outside : suspended.cycle? = none) :
    collector.sized? suspended answer = none := by
  cases suspended with
  | measuring => cases outside
  | symbolizing => rfl
  | capturing => rfl
  | subscribing => rfl
  | unsubscribing => rfl

/-- What is read off the calls that wait stays as it is outside the flush under way. -/
theorem flatMap_of_foreign {α : Type} {read : Suspended → List α}
    (unread : ∀ {suspended}, suspended.cycle? = none → read suspended = [])
    (foreign : machine.Foreign move) (stepped : machine.step? move = some (progress, after))
    (outside : progress.Outside) :
    after.waiting.flatMap read = machine.waiting.flatMap read := by
  have onto (outer : List Suspended) : (progress.onto outer).flatMap read = outer.flatMap read := by
    cases progress with
    | replied reply => rfl
    | waiting suspended =>
        rw [Progress.onto, List.flatMap_cons, unread outside]
        rfl
  cases foreign with
  | call passing =>
      obtain ⟨-, waiting_eq⟩ := Machine.step?_call stepped
      rw [waiting_eq, onto]
  | answer waiting idle =>
      obtain ⟨own, own_outer, own_waiting, -, waiting_eq⟩ := Machine.step?_answer stepped
      cases waiting.symm.trans own_waiting
      rw [waiting_eq, onto, waiting, List.flatMap_cons, unread idle]
      rfl
  | rehash =>
      obtain ⟨-, -, rfl⟩ := Machine.step?_rehash stepped
      rfl

/-- No sample goes out or comes back but for the flush under way. -/
theorem filterMap_out?_of_foreign (foreign : machine.Foreign move)
    (stepped : machine.step? move = some (progress, after)) (outside : progress.Outside) :
    after.waiting.filterMap Suspended.out? = machine.waiting.filterMap Suspended.out? := by
  rw [List.filterMap_eq_flatMap_toList, List.filterMap_eq_flatMap_toList]
  refine flatMap_of_foreign (fun idle => ?_) foreign stepped outside
  rw [out?_eq_none idle]
  rfl

theorem passes (conducted : Conducted history machine) (traced : Traced history machine)
    (sound : machine.Sound) (foreign : machine.Foreign move)
    (stepped : machine.step? move = some (progress, after))
    (passed : machine.collector.Passes after.collector machine.held) (outside : progress.Outside)
    (waiting_subset : ∀ suspended ∈ after.waiting,
      suspended ∈ machine.waiting ∨ suspended.cycle? = none) :
    Conducted (⟨machine, move, progress, after⟩ :: history) after := by
  have other : Moment.beginsFlush ⟨machine, move, progress, after⟩ = false :=
    foreign.beginsFlush_eq
  have skipped_eq : latestSkipped (⟨machine, move, progress, after⟩ :: history) =
      latestSkipped history := by
    rw [latestSkipped_cons other, Moment.answered?_eq_none unplaced?_eq_none foreign]
    rfl
  have sized_eq : latestSized (⟨machine, move, progress, after⟩ :: history) =
      latestSized history := by
    rw [latestSized_cons other, Moment.answered?_eq_none (sized?_eq_none _) foreign]
    rfl
  refine ⟨?_, fun suspended waits cycle inside => ?_, fun flushing handle owned released => ?_⟩
  · rw [filterMap_out?_of_foreign foreign stepped outside]
    exact conducted.backed.passes passed
  · have kept : suspended ∈ machine.waiting := by
      refine (waiting_subset suspended waits).resolve_right fun outside => ?_
      rw [outside] at inside
      cases inside
    have pending := conducted.pending suspended kept cycle inside
    rw [skipped_eq, sized_eq, latestSnapshot_cons other]
    refine (pending.aged fun handle owned => passed.ages handle ?_).mono fun _ excused =>
      excused.cons other
    rw [← pending.snapshot_eq] at owned
    exact List.mem_flatMap.mpr ⟨cycle, List.mem_filterMap.mpr ⟨suspended, kept, inside⟩, owned⟩
  · rw [latestSnapshot_cons other] at owned
    rw [sinceFlush_cons other]
    rw [passed.flushing_eq] at flushing
    obtain ⟨old, sample, before, now, ages⟩ :=
      passed.ages handle (snapshot_subset traced sound flushing owned)
    rw [Collector.hasReleased_eq now] at released
    -- Either it was released before, or this is the moment that released it.
    cases gone : old.isReleased with
    | true =>
        obtain ⟨moment, listed, releases⟩ := conducted.released_since flushing handle owned
          ((Collector.hasReleased_eq before).trans gone)
        exact ⟨moment, List.mem_cons_of_mem _ listed, releases⟩
    | false =>
        refine ⟨_, List.mem_cons_self .., ?_⟩
        simp [Moment.releases, before, now, gone, released]

theorem begins {clock : Clock} (conducted : Conducted history machine) (sound : machine.Sound)
    (idle : machine.collector.flushing = false)
    (went : machine.collector.flush clock = .ok (after.collector, progress)) :
    let now : List Moment := ⟨machine, .call (.flush clock), progress, after⟩ :: history
    Collector.Conducts (latestSnapshot now) (latestSkipped now) (latestSized now) (Excused now)
      after.collector progress := by
  intro now
  have begins : Moment.beginsFlush ⟨machine, .call (.flush clock), progress, after⟩ = true := by
    simp [Moment.beginsFlush, idle]
  have backed := conducted.backed
  rw [filterMap_out?_eq_nil (sound.cycles_eq_nil idle)] at backed
  rw [latestSnapshot_of_begins begins, latestSkipped, latestSized, sinceFlush_of_begins begins]
  exact Collector.conducts_of_flush _ idle (sound.balanced_idle idle) backed went

theorem proceeds {host : Host} {suspended : Suspended} {cycle : Cycle} {outer : List Suspended}
    (conducted : Conducted history machine) (traced : Traced history machine)
    (sound : machine.Sound) (waiting : machine.waiting = suspended :: outer)
    (inside : suspended.cycle? = some cycle) (outside : outer.filterMap Suspended.cycle? = [])
    (flushing : machine.collector.flushing = true)
    (went : machine.collector.resume suspended (host.answer suspended.request) =
      .ok (after.collector, progress)) :
    let now : List Moment := ⟨machine, .answer host, progress, after⟩ :: history
    Collector.Conducts (latestSnapshot now) (latestSkipped now) (latestSized now) (Excused now)
      after.collector progress := by
  intro now
  have waits : suspended ∈ machine.waiting := waiting ▸ List.mem_cons_self ..
  have other : Moment.beginsFlush ⟨machine, .answer host, progress, after⟩ = false := rfl
  have pending := conducted.pending suspended waits cycle inside
  have snapshot_eq := pending.snapshot_eq
  have backed := conducted.backed
  rw [waiting, filterMap_out?_cons suspended outside] at backed
  have balanced := sound.balanced_underway waits inside
  have included_eq : suspended.included = (latestSized history).map Prod.fst := by
    rw [map_latestSized]
    exact traced.included_eq suspended waits cycle inside
  have excused := pending.mono fun handle excused => excused.cons other
  rw [latestSnapshot_cons other, latestSkipped_cons other, latestSized_cons other]
  simp only [Moment.answered?, waiting]
  rw [← snapshot_eq] at excused ⊢
  refine Collector.conducts_of_resume inside balanced (sound.waiting suspended waits) backed excused
    included_eq went fun handle owned past cause => ?_
  rw [Excused, sinceFlush_cons other]
  refine ⟨_, List.mem_cons_self .., ?_, cause.imp (fun released => ⟨released, ?_⟩) fun told => ?_⟩
  · simp only [Moment.concludes, waiting, List.mem_filter, decide_eq_true_eq]
    exact ⟨owned, past⟩
  · obtain ⟨moment, listed, releases⟩ := conducted.released_since flushing handle
      (pending.accounts.sized_noted.left_subset owned) released
    exact ⟨moment, List.mem_cons_of_mem _ listed, releases⟩
  · simpa only [Moment.answered?, waiting] using told

theorem step (conducted : Conducted history machine) (traced : Traced history machine)
    (sound : machine.Sound) (stepped : machine.step? move = some (progress, after)) :
    Conducted (⟨machine, move, progress, after⟩ :: history) after := by
  have sound_after := sound.step stepped
  cases sound.passage stepped with
  | passes foreign passed outside cycles_eq waiting_subset =>
      exact conducted.passes traced sound foreign stepped passed outside waiting_subset
  | begins move_eq idle cycles_eq went waiting_eq =>
      subst move_eq
      rename_i clock
      refine of_conducts cycles_eq waiting_eq (conducted.begins sound idle went) ?_
      intro _ handle owned released
      have begins : Moment.beginsFlush ⟨machine, .call (.flush clock), progress, after⟩ = true := by
        simp [Moment.beginsFlush, idle]
      rw [latestSnapshot_of_begins begins] at owned
      obtain ⟨sample, found, gone⟩ := Option.any_eq_true _ _ |>.mp released
      rw [sound_after.isReleased_iff found, (sound.carries_of_flush idle went).live_eq] at gone
      exact absurd owned gone
  | proceeds move_eq before_eq inside cycles_eq flushing went waiting_eq =>
      subst move_eq
      refine of_conducts cycles_eq waiting_eq
        (conducted.proceeds traced sound before_eq inside cycles_eq flushing went) ?_
      intro _ handle owned released
      rw [latestSnapshot_cons rfl] at owned
      rw [sinceFlush_cons rfl]
      have present := sound.balanced.exists_sample_iff.mpr
        (List.mem_append_right _ (snapshot_subset traced sound flushing owned))
      have live_eq := (sound.carries_of_resume before_eq inside flushing went).live_eq
      obtain ⟨moment, listed, releases⟩ := conducted.released_since flushing handle owned
        (sound.hasReleased_of_live_eq sound_after live_eq present released)
      exact ⟨moment, List.mem_cons_of_mem _ listed, releases⟩

end Conducted

theorem conducted_of_run (run : Run settings history machine) : Conducted history machine := by
  induction run with
  | created created =>
      unfold Collector.create at created
      split at created
      · cases created
        refine ⟨fun handle sample found => ?_, fun _ member => (nomatch member),
          fun flushing => (nomatch flushing)⟩
        have vacant : Store.sample? { maxSamples := settings.maxSamples } handle = none := by
          simp [Store.sample?, Arena.get?, Arena.owned?]
        cases vacant.symm.trans found
      · cases created
  | moved run stepped ih => exact ih.step (traced_of_run run) run.sound stepped

theorem latestSnapshot_nodup (run : Run settings history machine) :
    (latestSnapshot history).Nodup := by
  induction run with
  | created created => exact List.nodup_nil
  | moved run stepped ih =>
      rename_i earlier before last move progress
      cases begins : Moment.beginsFlush ⟨before, move, progress, last⟩ with
      | true =>
          rw [latestSnapshot_of_begins begins]
          have nodup := run.sound.balanced.handles_nodup
          rw [List.append_nil] at nodup
          exact nodup
      | false =>
          rw [latestSnapshot_cons begins]
          exact ih

/-! ## The export -/

/-- What an exported profile counts and says, and where the samples of the snapshot have gone. -/
structure Partitioned (history : List Moment) (encoding last : Collector)
    (compression : Compression) (profile : ExportedProfile) : Prop where
  processedCount_eq : profile.processedCount = (latestSnapshot history).length
  sampleCount_eq : profile.sampleCount = (latestSized history).length
  skippedCount_eq : profile.skippedCount = (latestSkipped history).length
  /-- An exported sample has its places and the size that this flush has been told. -/
  sized_kept : ∀ entry ∈ latestSized history, encoding.Sizes entry
  /-- A skipped sample has the backtrace that the host was asked about. -/
  skipped_kept : ∀ entry ∈ latestSkipped history, encoding.Skips entry
  /-- It has it still when the flush has ended, unless the sample is gone with the snapshot. -/
  skipped_left : ∀ entry ∈ latestSkipped history, (last.store.sample? entry.1).isSome = true →
    last.Skips entry
  apart : ((latestSized history).map Prod.fst ++ (latestSkipped history).map Prod.fst).Nodup
  owned : (latestSized history).map Prod.fst ++ (latestSkipped history).map Prod.fst ⊆
    latestSnapshot history
  otherwise : ∀ handle ∈ latestSnapshot history, handle ∉ (latestSized history).map Prod.fst →
    handle ∉ (latestSkipped history).map Prod.fst → Excused history handle
  /-- The profile has one message for each exported sample, unless it is too long to be read. -/
  conveys : ∃ message, profile.bytes = compression.pack message ∧
    (message.length < 2 ^ 64 →
      ∃ received, Pprof.decode profile.bytes = .ok received ∧
        received.samples.length = profile.sampleCount ∧
        List.Forall₂ (fun entry message => ∃ sample,
            encoding.store.sample? entry.1 = some sample ∧
              sample.Written encoding.tables received message)
          (latestSized history).reverse received.samples)

/-- The samples that the encoder is given are those of the entries. -/
theorem forall₂_of_sizes {α : Type} {encoding : Collector} {entries : List (Handle × UInt64)}
    {messages : List α} {Rel : Sample → α → Prop} (kept : ∀ entry ∈ entries, encoding.Sizes entry)
    (each : List.Forall₂ Rel ((entries.map Prod.fst).filterMap encoding.store.sample?) messages) :
    List.Forall₂ (fun entry message => ∃ sample,
      encoding.store.sample? entry.1 = some sample ∧ Rel sample message) entries messages := by
  induction entries generalizing messages with
  | nil =>
      cases each
      exact .nil
  | cons entry rest ih =>
      obtain ⟨sample, found, -⟩ := kept entry (List.mem_cons_self ..)
      rw [List.map_cons, List.filterMap_cons_some found] at each
      cases each with
      | cons first others =>
          refine .cons ⟨sample, found, first⟩ (ih (fun other listed => ?_) others)
          exact kept other (List.mem_cons_of_mem _ listed)

/-- What the accounts say once nothing is left to be done. -/
theorem partitioned_of_conducts {last : Collector} {profile : ExportedProfile}
    (nodup : (latestSnapshot history).Nodup)
    (conducts : Collector.Conducts (latestSnapshot history) (latestSkipped history)
      (latestSized history) (Excused history) last (.replied (.flushed (.ok profile)))) :
    ∃ encoding cycle,
      Collector.Finishes encoding cycle ((latestSized history).map Prod.fst).reverse last
        (.replied (.flushed (.ok profile))) ∧
      Partitioned history encoding last cycle.options.compression profile := by
  obtain ⟨-, encoding, cycle, snapshot_eq, counted, balanced, accounts, finished⟩ := conducts
  refine ⟨encoding, cycle, finished, ?_⟩
  have left : ∀ entry ∈ latestSkipped history, (last.store.sample? entry.1).isSome = true →
      last.Skips entry := by
    intro entry listed present
    obtain ⟨sample, found⟩ := Option.isSome_iff_exists.mp present
    obtain ⟨old, before, ages⟩ := finished.survives (snapshot_eq ▸ balanced) found
    obtain ⟨own, own_found, unsymbolized, kept⟩ := accounts.skipped_kept entry listed
    cases before.symm.trans own_found
    exact ⟨sample, found, ages.symbolized_eq.trans unsymbolized, ages.backtrace_eq.trans kept⟩
  cases finished with
  | exported encoded released =>
      rename_i bytes
      obtain ⟨draft, numbering, -, describes, packed, decoded⟩ :=
        exists_draft_of_encodeProfile encoded
      have apart : List.Disjoint ((latestSized history).map Prod.fst)
          ((latestSkipped history).map Prod.fst) := by
        intro handle sized skipped
        obtain ⟨entry, inside, rfl⟩ := List.mem_map.mp sized
        obtain ⟨other, other_inside, same⟩ := List.mem_map.mp skipped
        obtain ⟨sample, found, symbolized, -⟩ := accounts.sized_kept entry inside
        obtain ⟨own, own_found, unsymbolized, -⟩ := accounts.skipped_kept other other_inside
        rw [same] at own_found
        cases found.symm.trans own_found
        rw [symbolized] at unsymbolized
        cases unsymbolized
      have written : List.Forall₂ (fun entry message => ∃ sample,
          encoding.store.sample? entry.1 = some sample ∧
            sample.Written encoding.tables (draft.received cycle.options) message)
          (latestSized history).reverse (draft.received cycle.options).samples := by
        refine forall₂_of_sizes (fun entry listed =>
          accounts.sized_kept entry (List.mem_reverse.mp listed)) ?_
        rw [List.map_reverse]
        exact describes.written_received cycle.options
      refine {
        processedCount_eq := congrArg List.length snapshot_eq
        sampleCount_eq := by rw [List.length_reverse, List.length_map]
        skippedCount_eq := counted
        sized_kept := accounts.sized_kept
        skipped_kept := accounts.skipped_kept
        skipped_left := left
        apart := List.nodup_append'.mpr ⟨accounts.sized_noted.nodup nodup,
          accounts.skipped_noted.nodup nodup, apart⟩
        owned := ?_
        otherwise := fun handle listed unsized unskipped =>
          ((accounts.concluded handle listed List.not_mem_nil).resolve_left unsized).resolve_left
            unskipped
        conveys := ⟨_, packed, fun short => ⟨_, decoded short, ?_, written⟩⟩ }
      · intro handle listed
        rcases List.mem_append.mp listed with sized | skipped
        · exact accounts.sized_noted.sublist.subset (List.mem_reverse.mpr sized)
        · exact accounts.skipped_noted.sublist.subset (List.mem_reverse.mpr skipped)
      · rw [← written.length_eq, List.length_reverse, List.length_reverse, List.length_map]

namespace Partitioned

variable {encoding last : Collector} {compression : Compression} {profile : ExportedProfile}

theorem counts_le (partitioned : Partitioned history encoding last compression profile) :
    profile.sampleCount + profile.skippedCount ≤ profile.processedCount := by
  have fits := (partitioned.apart.subperm partitioned.owned).length_le
  rw [List.length_append, List.length_map, List.length_map] at fits
  rw [partitioned.sampleCount_eq, partitioned.skippedCount_eq, partitioned.processedCount_eq]
  exact fits

/-- Without an excuse every sample of the snapshot is exported or skipped. -/
theorem counts_eq (partitioned : Partitioned history encoding last compression profile)
    (nodup : (latestSnapshot history).Nodup)
    (none_excused : ∀ handle ∈ latestSnapshot history, ¬Excused history handle) :
    profile.sampleCount + profile.skippedCount = profile.processedCount := by
  have covered : latestSnapshot history ⊆
      (latestSized history).map Prod.fst ++ (latestSkipped history).map Prod.fst := by
    intro handle listed
    by_contra missing
    rw [List.mem_append, not_or] at missing
    exact none_excused handle listed (partitioned.otherwise handle listed missing.1 missing.2)
  have fits := (nodup.subperm covered).length_le
  rw [List.length_append, List.length_map, List.length_map] at fits
  refine Nat.le_antisymm partitioned.counts_le ?_
  rw [partitioned.sampleCount_eq, partitioned.skippedCount_eq, partitioned.processedCount_eq]
  exact fits

end Partitioned

theorem not_excused
    (undisturbed : ∀ moment ∈ sinceFlush history,
      moment.answered? Suspended.unmeasurable? = none ∧
        ∀ handle ∈ latestSnapshot history, moment.releases handle = false)
    (owned : handle ∈ latestSnapshot history) : ¬Excused history handle := by
  rintro ⟨moment, listed, -, ⟨-, earlier, inside, releases⟩ | unmeasurable⟩
  · rw [(undisturbed earlier inside).2 handle owned] at releases
    cases releases
  · rw [(undisturbed moment listed).1] at unmeasurable
    cases unmeasurable

/--
The account of a flush that exports a profile, whatever calls are made while it is under way.  The
samples of the snapshot are those that were live when it began.  They are parted into the exported
ones, the skipped ones and the excused ones, so the first two are no more than all, and they are all
if no sample of the snapshot is released while the flush is under way and every object has a size.
-/
theorem partition_of_flush {earlier : List Moment} {profile : ExportedProfile}
    (run : Run settings (moment :: earlier) machine)
    (ended : moment.progress = .replied (.flushed (.ok profile))) :
    ∃ encoding cycle,
      Collector.Finishes encoding cycle ((latestSized (moment :: earlier)).map Prod.fst).reverse
        machine.collector moment.progress ∧
      Partitioned (moment :: earlier) encoding machine.collector cycle.options.compression profile ∧
      profile.sampleCount + profile.skippedCount ≤ profile.processedCount ∧
      ((∀ own ∈ sinceFlush (moment :: earlier),
          own.answered? Suspended.unmeasurable? = none ∧
            ∀ handle ∈ latestSnapshot (moment :: earlier), own.releases handle = false) →
        profile.sampleCount + profile.skippedCount = profile.processedCount) := by
  have nodup := latestSnapshot_nodup run
  have conducts : Collector.Conducts (latestSnapshot (moment :: earlier))
      (latestSkipped (moment :: earlier)) (latestSized (moment :: earlier))
      (Excused (moment :: earlier)) machine.collector moment.progress := by
    cases run with
    | moved run stepped =>
        rename_i before move progress
        obtain rfl : progress = .replied (.flushed (.ok profile)) := ended
        have conducted := conducted_of_run run
        cases run.sound.passage stepped with
        | passes foreign passed outside cycles_eq waiting_subset => cases outside
        | begins move_eq idle cycles_eq went waiting_eq =>
            subst move_eq
            exact conducted.begins run.sound idle went
        | proceeds move_eq before_eq inside cycles_eq flushing went waiting_eq =>
            subst move_eq
            exact conducted.proceeds (traced_of_run run) run.sound before_eq inside cycles_eq
              flushing went
  rw [ended] at conducts ⊢
  obtain ⟨encoding, cycle, finished, partitioned⟩ := partitioned_of_conducts nodup conducts
  exact ⟨encoding, cycle, finished, partitioned, partitioned.counts_le, fun undisturbed =>
    partitioned.counts_eq nodup fun handle owned => not_excused undisturbed owned⟩

/--
Of four objects the first one's backtrace stands for nothing, the third one's size is not known, and
the fourth one is released while the second one is measured.
-/
def partlyExported : List Move :=
  let answer := Move.answer (.uniform [⟨"work", "work.rb", 7⟩])
  [.call (.start 0), answer, .call (.allocate ⟨1⟩ [] 0), answer, .call (.allocate ⟨2⟩ [] 0), answer,
    .call (.allocate ⟨3⟩ [] 0), answer, .call (.allocate ⟨4⟩ [] 0), answer, .call (.flush ⟨0, 0⟩),
    .answer { Host.uniform [] with symbolize := fun _ => .error (.unresolvedFrame 7) }, answer,
    answer, answer, .call (.release ⟨4⟩), answer,
    .answer { Host.uniform [] with objectSize := fun _ => none }]

theorem partition_of_partlyExported :
    ∃ moment earlier machine profile,
      replay { sampleRate := 1, compression := .none } partlyExported =
        some (moment :: earlier, machine) ∧
      moment.progress = .replied (.flushed (.ok profile)) ∧
      profile.processedCount = 4 ∧ profile.sampleCount = 1 ∧ profile.skippedCount = 1 ∧
      ∃ encoding compression,
        Partitioned (moment :: earlier) encoding machine.collector compression profile := by
  obtain ⟨history, machine, replayed, checked⟩ := exists_of_replay
    { sampleRate := 1, compression := .none } partlyExported
    (fun run => (latestExport? run.1).any fun profile : ExportedProfile =>
      decide (profile.processedCount = 4 ∧ profile.sampleCount = 1 ∧ profile.skippedCount = 1))
    (by decide +kernel)
  obtain ⟨profile, exported, counts⟩ := (Option.any_eq_true _ _).mp checked
  obtain ⟨processed, one, skipped⟩ := of_decide_eq_true counts
  obtain ⟨moment, earlier, rfl, ended⟩ := progress_eq_of_latestExport? exported
  obtain ⟨encoding, cycle, -, partitioned, -⟩ :=
    partition_of_flush (Run.of_replay replayed) ended
  exact ⟨moment, earlier, machine, profile, replayed, ended, processed, one, skipped, encoding,
    cycle.options.compression, partitioned⟩

end HeapSampler
