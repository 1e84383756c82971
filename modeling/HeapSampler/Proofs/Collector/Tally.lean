import Mathlib
import HeapSampler.Proofs.Collector.Drops
import HeapSampler.Proofs.Collector.Frame
import HeapSampler.Proofs.Collector.Standing

/-!
# Collectors as a set and a counter

Seen from outside a collector is a set of live identities, a bound on it and a count of drops.  Its
surroundings act on it by calls and by answers to the flush under way, and further calls may be made
while that flush waits; only a new session does not begin within a flush.  The live table may take
another order at any time.  Every such course of events shows of the collector what the set and the
counter make one expect.
-/

namespace HeapSampler

structure Tally where
  running : Bool := false
  rate : SampleRate
  maxSamples : Nat
  live : Finset Identity := ∅
  dropped : Nat := 0
  /-- What the flush under way is to report: how many samples were live and how many dropped. -/
  report : Option (Nat × Nat) := none

namespace Tally

def fresh (valid : ValidSettings) : Tally where
  rate := valid.rate
  maxSamples := valid.settings.maxSamples

def allocated (tally : Tally) (identity : Identity) : Tally :=
  let others := tally.live.erase identity
  if others.card < tally.maxSamples then { tally with live := insert identity others }
  else { tally with live := others, dropped := tally.dropped + 1 }

def relocated (tally : Tally) (old new : Identity) : Tally :=
  if old ∈ tally.live ∧ old ≠ new then { tally with live := insert new (tally.live.erase old) }
  else tally

def called (tally : Tally) : Call → Tally
  | .allocate identity _ draw =>
      if tally.running && tally.rate.admits draw then tally.allocated identity else tally
  | .release identity => { tally with live := tally.live.erase identity }
  | .relocate old new => tally.relocated old new
  | .start _ =>
      if tally.running then tally else { tally with running := true, live := ∅, dropped := 0 }
  | .stop | .retire => { tally with running := false }
  | .configure settings =>
      match settings.validate with
      | .ok valid => { tally with rate := valid.rate, maxSamples := settings.maxSamples }
      | .error _ => tally
  | .setGlobalTags _ => tally
  | .flush _ =>
      match tally.report with
      | none => { tally with report := some (tally.live.card, tally.dropped) }
      | some _ => tally

/--
A flush that has succeeded takes the drops away that it reports; one that has failed does not.
-/
def ended (tally : Tally) : Progress → Tally
  | .replied (.flushed (.ok _)) =>
      { tally with dropped := tally.dropped - tally.report.elim 0 Prod.snd, report := none }
  | .replied (.flushed (.error (.encodingFailure _))) => { tally with report := none }
  | .replied (.flushed (.error .alreadyFlushing)) | .replied .noted | .replied (.settled _)
  | .waiting _ => tally

end Tally

inductive Act where
  /-- A call is made, all of whose requests are answered at once unless it begins a flush. -/
  | call (call : Call) (host : Host)
  /-- The flush under way is answered. -/
  | answer (host : Host)
  /-- The live table, which promises no order, lists its entries in another one from now on. -/
  | rehash (live : List (Identity × Handle))

namespace Act

def Allowed (machine : Machine) : Act → Prop
  | .call (.start _) _ => machine.collector.flushing = false
  | .call .. | .answer _ | .rehash _ => True

instance (machine : Machine) : DecidablePred (Allowed machine)
  | .call (.start _) _ => inferInstanceAs (Decidable (machine.collector.flushing = false))
  | .call (.allocate ..) _ | .call (.release _) _ | .call (.relocate ..) _ | .call .stop _
  | .call (.configure _) _ | .call (.setGlobalTags _) _ | .call (.flush _) _ | .call .retire _
  | .answer _ | .rehash _ => .isTrue trivial

def allocates : Act → Bool
  | .call (.allocate ..) _ => true
  | _ => false

end Act

/-- What an act leads to, if it can be done and the books do not turn out to be broken. -/
def Machine.act? (machine : Machine) : Act → Option (Progress × Machine)
  | .answer host => machine.step? (.answer host)
  | .rehash live => machine.step? (.rehash live)
  | .call call host =>
      match machine.step? (.call call) with
      | none => none
      | some (.replied reply, after) => some (.replied reply, after)
      | some (.waiting suspended, after) =>
          if suspended.cycle?.isSome then some (.waiting suspended, after)
          else after.step? (.answer host)

/-- What can have been done to a machine and where it led, the latest act in front. -/
inductive Course (settings : Settings) : List (Act × Progress) → Machine → Prop where
  | created {collector : Collector} (created : Collector.create settings = .ok collector) :
      Course settings [] { collector }
  | acted {history : List (Act × Progress)} {machine after : Machine} {act : Act}
      {progress : Progress} (course : Course settings history machine)
      (allowed : act.Allowed machine) (done : machine.act? act = some (progress, after)) :
      Course settings ((act, progress) :: history) after

namespace Tally

def amid (tally : Tally) : Act → Tally
  | .call call _ => tally.called call
  | .answer _ | .rehash _ => tally

/-- The tally after a history; of the collector it looks only at how flushes ended. -/
def after (valid : ValidSettings) : List (Act × Progress) → Tally
  | [] => fresh valid
  | (act, progress) :: history => ((after valid history).amid act).ended progress

end Tally

variable {host : Host} {stack : Backtrace} {tally : Tally} {standing : Standing} {call : Call}
  {machine after : Machine} {progress : Progress} {identity : Identity}

/-! ## Calls that begin no flush -/

structure Tally.Tells (tally : Tally) (standing : Standing) : Prop where
  running_eq : tally.running = standing.running
  rate_eq : tally.rate = standing.settings.rate
  maxSamples_eq : tally.maxSamples = standing.maxSamples
  live_eq : tally.live = (standing.live.map Prod.fst).toFinset

namespace Tally.Tells

theorem erase_eq (tells : tally.Tells standing) (identity : Identity) :
    tally.live.erase identity = ((standing.without identity).map Prod.fst).toFinset := by
  ext other
  rw [tells.live_eq]
  simp only [Standing.without, Finset.mem_erase, List.mem_toFinset, List.mem_map, List.mem_filter,
    decide_eq_true_eq]
  constructor
  · rintro ⟨apart, entry, listed, rfl⟩
    exact ⟨entry, ⟨listed, apart⟩, rfl⟩
  · rintro ⟨entry, ⟨listed, apart⟩, rfl⟩
    exact ⟨apart, entry, listed, rfl⟩

theorem card_eq (tells : tally.Tells standing) (nodup : (standing.live.map Prod.fst).Nodup)
    (identity : Identity) :
    (tally.live.erase identity).card = (standing.without identity).length := by
  have sub : ((standing.without identity).map Prod.fst).Sublist (standing.live.map Prod.fst) :=
    List.filter_sublist.map _
  rw [tells.erase_eq, List.toFinset_card_of_nodup (nodup.sublist sub), List.length_map]

theorem allocated (tells : tally.Tells standing) (nodup : (standing.live.map Prod.fst).Nodup)
    (identity : Identity) (view : View) :
    (tally.allocated identity).Tells (standing.allocated identity view) := by
  have others_eq := tells.erase_eq identity
  have room_iff : (tally.live.erase identity).card < tally.maxSamples ↔
      (standing.without identity).length < standing.maxSamples := by
    rw [tells.card_eq nodup, tells.maxSamples_eq]
  unfold Tally.allocated Standing.allocated
  by_cases room : (standing.without identity).length < standing.maxSamples
  · rw [if_pos (room_iff.mpr room), if_pos room]
    exact { tells with live_eq := by simp [others_eq] }
  · rw [if_neg (mt room_iff.mp room), if_neg room]
    exact { tells with live_eq := others_eq }

theorem relocated (tells : tally.Tells standing) {old new : Identity} (apart : old ≠ new) :
    (tally.relocated old new).Tells (standing.relocated old new) := by
  have listed_iff : old ∈ tally.live ↔ ∃ entry ∈ standing.live, entry.1 = old := by
    rw [tells.live_eq]
    simp
  have moved_iff (entry : Identity × Option View) :
      (entry ∈ standing.live.filter fun entry => entry.1 = old) ↔
        entry ∈ standing.live ∧ entry.1 = old := by
    simp
  cases moved : standing.live.filter fun entry => entry.1 = old with
  | nil =>
      have absent : old ∉ tally.live := by
        rw [listed_iff]
        rintro ⟨entry, both⟩
        simpa [moved] using (moved_iff entry).mpr both
      simp only [Standing.relocated, moved, Tally.relocated, absent, false_and, if_false]
      exact tells
  | cons first others =>
      have present : old ∈ tally.live := by
        rw [listed_iff]
        exact ⟨first, (moved_iff first).mp (moved ▸ List.mem_cons_self)⟩
      have kept : (((standing.without old).filter fun entry => entry.1 ≠ new).map
          Prod.fst).toFinset = (tally.live.erase old).erase new := by
        rw [tells.erase_eq]
        ext other
        simp [and_comm]
      simp only [Standing.relocated, moved, Tally.relocated, present, apart, ne_eq,
        not_false_eq_true, and_self, if_true]
      refine { tells with live_eq := ?_ }
      rw [List.map_append, List.toFinset_append, kept, List.map_map]
      ext other
      simp only [Finset.mem_insert, Finset.mem_union, Finset.mem_erase, List.mem_toFinset,
        List.mem_map, Function.comp_apply]
      grind

theorem called (tells : tally.Tells standing) (nodup : (standing.live.map Prod.fst).Nodup)
    (passing : ∀ clock, call = .flush clock → tally.report.isSome = true) :
    (tally.called call).Tells (standing.next host call stack) := by
  cases call with
  | allocate identity tags draw =>
      simp only [Tally.called, Standing.next, tells.running_eq, tells.rate_eq]
      split
      · exact tells.allocated nodup identity _
      · exact tells
  | release identity => exact { tells with live_eq := tells.erase_eq identity }
  | relocate old new =>
      by_cases same : old = new
      · simp only [Tally.called, Standing.next, Tally.relocated, same, ne_eq, not_true_eq_false,
          and_false, if_false, if_true]
        exact tells
      · simp only [Tally.called, Standing.next, same, if_false]
        exact tells.relocated same
  | start instant =>
      simp only [Tally.called, Standing.next, tells.running_eq]
      split
      · exact tells
      · exact { tells with running_eq := rfl, live_eq := rfl }
  | stop => exact { tells with running_eq := rfl }
  | configure settings =>
      cases checked : settings.validate with
      | ok valid =>
          simp only [Tally.called, Standing.next, checked]
          exact { tells with rate_eq := rfl, maxSamples_eq := rfl }
      | error cause =>
          simp only [Tally.called, Standing.next, checked]
          exact tells
  | setGlobalTags tags =>
      simp only [Tally.called, Standing.next]
      split
      · exact tells
      · exact { tells with rate_eq := tells.rate_eq }
  | flush clock =>
      obtain ⟨report, present⟩ := Option.isSome_iff_exists.mp (passing clock rfl)
      simp only [Tally.called, present]
      exact tells
  | retire => exact { tells with running_eq := rfl }

/-- Unless a session starts, a call drops one sample or none. -/
theorem dropped_of_called (tells : tally.Tells standing) (host : Host) (stack : Backtrace)
    (nodup : (standing.live.map Prod.fst).Nodup) (continues : ∀ instant, call ≠ .start instant) :
    (tally.called call).dropped = tally.dropped ∧
        (standing.next host call stack).dropped = standing.dropped ∨
      (tally.called call).dropped = tally.dropped + 1 ∧
        (standing.next host call stack).dropped =
          (standing.dropped + 1) % (Store.maxDropped + 1) := by
  cases call with
  | allocate identity tags draw =>
      simp only [Tally.called, Standing.next, tells.running_eq, tells.rate_eq, Tally.allocated,
        Standing.allocated, tells.card_eq nodup, tells.maxSamples_eq]
      split
      · split
        · exact .inl ⟨rfl, rfl⟩
        · exact .inr ⟨rfl, rfl⟩
      · exact .inl ⟨rfl, rfl⟩
  | start instant => exact absurd rfl (continues instant)
  | release identity => exact .inl ⟨rfl, rfl⟩
  | relocate old new =>
      refine .inl ⟨?_, ?_⟩
      · simp only [Tally.called, Tally.relocated]
        split <;> rfl
      · simp only [Standing.next, Standing.relocated]
        split
        · rfl
        · split <;> rfl
  | stop => exact .inl ⟨rfl, rfl⟩
  | configure settings =>
      refine .inl ⟨?_, ?_⟩
      · simp only [Tally.called]
        split <;> rfl
      · simp only [Standing.next]
        split <;> rfl
  | setGlobalTags tags =>
      refine .inl ⟨rfl, ?_⟩
      simp only [Standing.next]
      split <;> rfl
  | flush clock =>
      refine .inl ⟨?_, rfl⟩
      simp only [Tally.called]
      split <;> rfl
  | retire => exact .inl ⟨rfl, rfl⟩

/-- It does not matter how the host symbolizes. -/
theorem framed {before after : Collector} {host' : Host}
    (tells : tally.Tells (before.standing host)) (framed : before.Framed after)
    (live_eq : after.store.live = before.store.live) : tally.Tells (after.standing host') where
  running_eq := tells.running_eq.trans framed.running_eq.symm
  rate_eq := tells.rate_eq.trans (congrArg ValidSettings.rate framed.settings_eq.symm)
  maxSamples_eq := tells.maxSamples_eq.trans framed.maxSamples_eq.symm
  live_eq := by
    rw [tells.live_eq]
    simp only [Collector.standing, live_eq, List.map_map]
    rfl

end Tally.Tells

theorem Collector.standing_identities (host : Host) (collector : Collector) :
    (collector.standing host).live.map Prod.fst = collector.store.live.map Prod.fst := by
  rw [standing, List.map_map]
  rfl

theorem Tally.report_of_called (tally : Tally)
    (passing : ∀ clock, call = .flush clock → tally.report.isSome = true) :
    (tally.called call).report = tally.report := by
  cases call with
  | allocate identity tags draw =>
      simp only [called, allocated]
      split
      · split <;> rfl
      · rfl
  | relocate old new =>
      simp only [called, relocated]
      split <;> rfl
  | start instant =>
      simp only [called]
      split <;> rfl
  | configure settings =>
      simp only [called]
      split <;> rfl
  | flush clock =>
      obtain ⟨report, present⟩ := Option.isSome_iff_exists.mp (passing clock rfl)
      simp only [called, present]
  | release | stop | setGlobalTags | retire => rfl

/-- A refusal or a note ends no flush. -/
theorem Tally.ended_of_reply (tally : Tally) (running : Bool) (call : Call) :
    tally.ended (.replied (call.reply running)) = tally := by
  cases call <;> rfl

/-! ## Acts on machines -/

namespace Machine

theorem Sound.act {act : Act} (sound : machine.Sound)
    (done : machine.act? act = some (progress, after)) : after.Sound := by
  cases act with
  | answer host =>
      have stepped : machine.step? (.answer host) = some (progress, after) := done
      exact sound.step stepped
  | rehash live =>
      have stepped : machine.step? (.rehash live) = some (progress, after) := done
      exact sound.step stepped
  | call call host =>
      simp only [act?] at done
      split at done
      · cases done
      · rename_i reply reached stepped
        cases done
        exact sound.step stepped
      · rename_i suspended reached stepped
        split at done
        · cases done
          exact sound.step stepped
        · exact (sound.step stepped).step done

/-- A call that begins no flush runs to its reply, and what has waited before it waits on. -/
theorem Sound.perform_of_act (sound : machine.Sound)
    (passing : ∀ clock, call = .flush clock → machine.collector.flushing = true)
    (done : machine.act? (.call call host) = some (progress, after)) :
    ∃ reply, progress = .replied reply ∧ after.waiting = machine.waiting ∧
      Collector.perform (Collector.quiet host) machine.collector call =
        .ok (after.collector, reply) := by
  rw [Collector.perform_quiet]
  simp only [act?] at done
  split at done
  · cases done
  · rename_i reply reached stepped
    cases done
    obtain ⟨went, waiting_eq⟩ := step?_call stepped
    exact ⟨reply, rfl, waiting_eq, by rw [went, Collector.driven_replied]⟩
  · rename_i suspended middle stepped
    obtain ⟨went, waiting_eq⟩ := step?_call stepped
    have outside : suspended.cycle? = none := by
      rcases Collector.call_cases sound.balanced went with ⟨clock, rfl, idle, -⟩ | ⟨-, -, outside⟩
      · exact absurd (passing clock rfl) (by simp [idle])
      · exact outside
    rw [outside, if_neg (by simp)] at done
    obtain ⟨innermost, outer, waiting, resumed, left_eq⟩ := step?_answer done
    rw [waiting_eq] at waiting
    cases waiting
    obtain ⟨-, -, reply, rfl⟩ :=
      Collector.passes_of_resume outside (sound.step stepped).balanced resumed
    refine ⟨reply, rfl, left_eq, ?_⟩
    rw [went, Collector.driven_waiting, resumed, Collector.driven_replied]

/-- A flush that begins runs up to its first request or to its end. -/
theorem Sound.flush_of_act {clock : Clock} (sound : machine.Sound)
    (idle : machine.collector.flushing = false)
    (done : machine.act? (.call (.flush clock) host) = some (progress, after)) :
    machine.collector.flush clock = .ok (after.collector, progress) ∧
      after.waiting = progress.onto machine.waiting := by
  simp only [act?] at done
  split at done
  · cases done
  · rename_i reply reached stepped
    cases done
    exact step?_call stepped
  · rename_i suspended middle stepped
    obtain ⟨went, waiting_eq⟩ := step?_call stepped
    obtain ⟨-, -, -, -, -, -, skipped, inside⟩ := sound.carries_of_flush idle went
    rw [if_pos (by rw [inside]; rfl)] at done
    cases done
    exact ⟨went, waiting_eq⟩

end Machine

/-! ## What a machine shows -/

/--
A machine shows what a tally says: what the flush under way, the only call that waits, is to report,
and as drops those that are pending and those that this flush has taken.
-/
structure Tally.Shown (tally : Tally) (machine : Machine) : Prop where
  sound : machine.Sound
  tells : ∀ host, tally.Tells (machine.collector.standing host)
  report_eq : tally.report =
    machine.cycles.head?.map fun cycle => (cycle.snapshot.length, cycle.dropped)
  dropped_eq : tally.dropped =
    machine.collector.store.dropped + (machine.cycles.map Cycle.dropped).sum
  flushes : ∀ suspended ∈ machine.waiting, suspended.cycle?.isSome = true

theorem Collector.Finishes.processedCount_eq {collector after : Collector} {cycle : Cycle}
    {included : List Handle} {profile : ExportedProfile}
    (finished : Finishes collector cycle included after (.replied (.flushed (.ok profile)))) :
    profile.processedCount = cycle.snapshot.length := by
  cases finished
  rfl

def Tally.Reports (tally : Tally) (progress : Progress) : Prop :=
  ∀ profile, progress = .replied (.flushed (.ok profile)) →
    tally.report = some (profile.processedCount, profile.droppedCount)

theorem eq_nil_of_flushes {waiting : List Suspended}
    (flushes : ∀ suspended ∈ waiting, suspended.cycle?.isSome = true)
    (none_cycles : waiting.filterMap Suspended.cycle? = []) : waiting = [] := by
  rw [List.eq_nil_iff_forall_not_mem]
  intro suspended member
  have inside := flushes suspended member
  rw [List.filterMap_eq_nil_iff.mp none_cycles suspended member] at inside
  cases inside

namespace Tally.Shown

theorem nodup (shown : tally.Shown machine) (host : Host) :
    ((machine.collector.standing host).live.map Prod.fst).Nodup := by
  rw [Collector.standing_identities]
  exact shown.sound.balanced.identities_nodup

theorem flushing_eq (shown : tally.Shown machine) :
    machine.collector.flushing = tally.report.isSome := by
  have length_eq := shown.sound.cycles_length
  rw [shown.report_eq]
  cases cycles_eq : machine.cycles with
  | nil =>
      rw [cycles_eq] at length_eq
      exact Bool.toNat_eq_zero.mp length_eq.symm
  | cons cycle others =>
      have positive : 0 < machine.collector.flushing.toNat := by
        rw [← length_eq, cycles_eq]
        exact Nat.succ_pos _
      simpa [Nat.pos_iff_ne_zero] using positive

theorem passes (shown : tally.Shown machine)
    (passing : ∀ clock, call = .flush clock → tally.report.isSome = true)
    (allowed : (Act.call call host).Allowed machine)
    (bounded : (tally.called call).dropped ≤ Store.maxDropped)
    (done : machine.act? (.call call host) = some (progress, after)) :
    progress = .replied (call.reply tally.running) ∧ (tally.called call).Shown after := by
  have flushing (clock : Clock) (same : call = .flush clock) :
      machine.collector.flushing = true := by
    rw [shown.flushing_eq]
    exact passing clock same
  obtain ⟨reply, rfl, waiting_eq, performed⟩ := shown.sound.perform_of_act flushing done
  obtain ⟨standing_eq, reply_eq⟩ :
      after.collector.standing host =
          (machine.collector.standing host).next host call host.stack ∧
        reply = call.reply machine.collector.running :=
    Collector.standing_of_perform shown.sound.balanced flushing performed
  have tells := shown.tells host
  have nodup := shown.nodup host
  have cycles_eq : after.cycles = machine.cycles := by rw [Machine.cycles, waiting_eq]; rfl
  have next_tells : (tally.called call).Tells (after.collector.standing host) := by
    rw [standing_eq]
    exact tells.called nodup passing
  have next_dropped : after.collector.store.dropped =
      ((machine.collector.standing host).next host call host.stack).dropped :=
    congrArg Standing.dropped standing_eq
  refine ⟨by rw [reply_eq, tells.running_eq]; rfl, shown.sound.act done,
    fun own => next_tells.framed (.refl _) rfl, ?_, ?_, ?_⟩
  · rw [tally.report_of_called passing, cycles_eq]
    exact shown.report_eq
  · have kept := shown.dropped_eq
    have before_dropped : (machine.collector.standing host).dropped =
        machine.collector.store.dropped := rfl
    rw [cycles_eq, next_dropped]
    -- A start resets the drops that are pending; no flush may be under way that has taken some.
    by_cases starts : ∃ instant, call = .start instant
    · obtain ⟨instant, rfl⟩ := starts
      rw [shown.sound.cycles_eq_nil allowed] at kept ⊢
      simp only [called, Standing.next, tells.running_eq]
      split
      · rw [kept, before_dropped]
      · rfl
    · rcases tells.dropped_of_called host host.stack nodup
        (fun instant same => starts ⟨instant, same⟩) with
        ⟨same, pending⟩ | ⟨more, pending⟩
      · rw [same, pending, kept, before_dropped]
      · rw [more] at bounded
        rw [more, pending, kept, before_dropped, Nat.mod_eq_of_lt (by omega)]
        omega
  · rw [waiting_eq]
    exact shown.flushes

theorem reordered (shown : tally.Shown machine) {live : List (Identity × Handle)}
    (done : machine.act? (.rehash live) = some (progress, after)) :
    progress = .replied .noted ∧ tally.Shown after := by
  have stepped : machine.step? (.rehash live) = some (progress, after) := done
  have sound_after := shown.sound.step stepped
  obtain ⟨shuffled, rfl, rfl⟩ := Machine.step?_rehash stepped
  refine ⟨rfl, sound_after, fun host => { shown.tells host with live_eq := ?_ }, shown.report_eq,
    shown.dropped_eq, shown.flushes⟩
  rw [(shown.tells host).live_eq, Collector.standing_identities, Collector.standing_identities]
  exact List.toFinset_eq_of_perm _ _ (shuffled.map _)

theorem carries {cycle : Cycle} {included : List Handle} {before : Collector}
    (tells : ∀ host, tally.Tells (before.standing host)) (framed : before.Framed after.collector)
    {pending : Nat}
    (carries : Collector.Carries cycle included before.store.live pending after.collector progress)
    (report_eq : tally.report = some (cycle.snapshot.length, cycle.dropped))
    (dropped_eq : tally.dropped = pending + cycle.dropped)
    (bounded : tally.dropped ≤ Store.maxDropped) (waiting_eq : after.waiting = progress.onto []) :
    tally.Reports progress ∧ (tally.ended progress).Shown after := by
  have outside : ([] : List Suspended).filterMap Suspended.cycle? = [] := rfl
  have sound := Machine.sound_of_carries outside carries waiting_eq
  cases progress with
  | waiting suspended =>
      obtain ⟨-, -, -, live_eq, pending_eq, -, skipped, inside⟩ := carries
      have cycles_eq : after.cycles = [{ cycle with skipped }] := by
        rw [Machine.cycles, waiting_eq, Progress.onto, List.filterMap_cons_some inside]
        rfl
      refine ⟨?_, sound,
        fun host => (tells host).framed framed live_eq, ?_, ?_, ?_⟩
      · rintro profile ⟨⟩
      · rw [cycles_eq]
        exact report_eq
      · rw [cycles_eq, pending_eq]
        exact dropped_eq
      · rw [waiting_eq]
        intro other member
        obtain rfl := List.mem_singleton.mp member
        rw [inside]
        rfl
  | replied reply =>
      obtain ⟨-, -, live_eq, ⟨encoding, skipped, -, -, finished⟩, outcome⟩ := carries
      have cycles_eq : after.cycles = [] := by
        rw [Machine.cycles, waiting_eq]
        rfl
      have told (host : Host) : tally.Tells (after.collector.standing host) :=
        (tells host).framed framed live_eq
      have flushes : ∀ suspended ∈ after.waiting, suspended.cycle?.isSome = true := by
        rw [waiting_eq]
        exact List.forall_mem_nil _
      rcases outcome with ⟨profile, rfl, own_dropped, pending_eq⟩ | ⟨cause, rfl, pending_eq⟩
      · refine ⟨?_, sound, fun host => { told host with }, ?_, ?_, flushes⟩
        · rintro _ ⟨rfl⟩
          rw [report_eq, own_dropped, finished.processedCount_eq]
        · rw [cycles_eq]
          rfl
        · rw [cycles_eq, pending_eq]
          simp only [ended, report_eq, Option.elim_some]
          simp only [List.map_nil, List.sum_nil]
          omega
      · refine ⟨?_, sound, fun host => { told host with }, ?_, ?_, flushes⟩
        · rintro profile ⟨⟩
        · rw [cycles_eq]
          rfl
        · rw [cycles_eq, pending_eq]
          simp only [ended, List.map_nil, List.sum_nil]
          omega

theorem begins (shown : tally.Shown machine) {clock : Clock} (idle : tally.report = none)
    (bounded : tally.dropped ≤ Store.maxDropped)
    (done : machine.act? (.call (.flush clock) host) = some (progress, after)) :
    (tally.called (.flush clock)).Reports progress ∧
      ((tally.called (.flush clock)).ended progress).Shown after := by
  have unflushed : machine.collector.flushing = false := by
    rw [shown.flushing_eq, idle]
    rfl
  have none_cycles := shown.sound.cycles_eq_nil unflushed
  have none_waiting : machine.waiting = [] := eq_nil_of_flushes shown.flushes none_cycles
  obtain ⟨went, waiting_eq⟩ := shown.sound.flush_of_act unflushed done
  rw [none_waiting] at waiting_eq
  have card_eq : tally.live.card = (machine.collector.store.live.map Prod.snd).length := by
    rw [(shown.tells host).live_eq, List.toFinset_card_of_nodup (shown.nodup host),
      Collector.standing_identities, List.length_map, List.length_map]
  have dropped_eq := shown.dropped_eq
  rw [none_cycles, List.map_nil, List.sum_nil, Nat.add_zero] at dropped_eq
  have called_eq : tally.called (.flush clock) =
      { tally with report := some (tally.live.card, tally.dropped) } := by
    simp only [called, idle]
  rw [called_eq]
  refine carries (fun own => { shown.tells own with })
    (Collector.framed_of_flush unflushed (shown.sound.balanced_idle unflushed) went)
    (shown.sound.carries_of_flush unflushed went) ?_ ?_ bounded waiting_eq
  · rw [card_eq, dropped_eq]
  · rw [dropped_eq, Nat.zero_add]

theorem answered (shown : tally.Shown machine) (bounded : tally.dropped ≤ Store.maxDropped)
    (done : machine.act? (.answer host) = some (progress, after)) :
    tally.Reports progress ∧ (tally.ended progress).Shown after := by
  obtain ⟨suspended, outer, waiting, went, waiting_eq⟩ := Machine.step?_answer done
  obtain ⟨cycle, inside⟩ :=
    Option.isSome_iff_exists.mp (shown.flushes suspended (waiting ▸ List.mem_cons_self))
  have cycles_eq : machine.cycles = cycle :: outer.filterMap Suspended.cycle? := by
    rw [Machine.cycles, waiting, List.filterMap_cons_some inside]
  have report_eq := shown.report_eq
  have dropped_eq := shown.dropped_eq
  have length_eq := shown.sound.cycles_length
  have at_most := Bool.toNat_le machine.collector.flushing
  rw [cycles_eq] at report_eq dropped_eq length_eq
  rw [← length_eq, List.length_cons] at at_most
  have outside : outer.filterMap Suspended.cycle? = [] :=
    List.length_eq_zero_iff.mp (by omega)
  have none_outer : outer = [] := by
    refine eq_nil_of_flushes (fun other member => ?_) outside
    exact shown.flushes other (waiting ▸ List.mem_cons_of_mem _ member)
  have flushing : machine.collector.flushing = true := by
    rw [shown.flushing_eq, report_eq]
    rfl
  rw [outside] at dropped_eq
  rw [none_outer] at waiting_eq
  have listed : suspended ∈ machine.waiting := waiting ▸ List.mem_cons_self
  have balanced := shown.sound.balanced_underway listed inside
  have innermost := shown.sound.waiting suspended listed
  exact carries shown.tells (Collector.framed_of_resume inside balanced innermost went)
    (Collector.carries_of_resume inside flushing balanced innermost went) report_eq
    (by simpa using dropped_eq) bounded waiting_eq

theorem next {act : Act} (shown : tally.Shown machine) (allowed : act.Allowed machine)
    (bounded : (tally.amid act).dropped ≤ Store.maxDropped)
    (done : machine.act? act = some (progress, after)) :
    (tally.amid act).Reports progress ∧
      (∀ call host, act = .call call host →
        (∀ clock, call = .flush clock → tally.report.isSome = true) →
        progress = .replied (call.reply tally.running)) ∧
      ((tally.amid act).ended progress).Shown after := by
  cases act with
  | answer host =>
      obtain ⟨reports, shown'⟩ := shown.answered bounded done
      exact ⟨reports, nofun, shown'⟩
  | rehash live =>
      obtain ⟨rfl, shown'⟩ := shown.reordered done
      exact ⟨nofun, nofun, shown'⟩
  | call call host =>
      -- A flush that finds another one under way passes by like any other call.
      by_cases passing : ∀ clock, call = .flush clock → tally.report.isSome = true
      · obtain ⟨rfl, shown'⟩ := shown.passes passing allowed bounded done
        refine ⟨?_, ?_, ?_⟩
        · cases call <;> nofun
        · rintro _ _ ⟨rfl⟩ _
          rfl
        · rw [Tally.ended_of_reply]
          exact shown'
      · obtain ⟨clock, beginning⟩ := not_forall.mp passing
        obtain ⟨rfl, unreported⟩ := Classical.not_imp.mp beginning
        have idle : tally.report = none := by simpa using unreported
        have same : (tally.called (.flush clock)).dropped = tally.dropped := by
          simp only [called, idle]
        obtain ⟨reports, shown'⟩ := shown.begins idle (same ▸ bounded) done
        refine ⟨reports, ?_, shown'⟩
        rintro _ _ ⟨rfl⟩ passing'
        exact absurd (passing' clock rfl) unreported

end Tally.Shown

/-! ## Courses -/

theorem Tally.dropped_amid_le (tally : Tally) (act : Act) :
    (tally.amid act).dropped ≤ tally.dropped + act.allocates.toNat := by
  cases act with
  | answer host => exact Nat.le_add_right _ _
  | rehash live => exact Nat.le_add_right _ _
  | call call host =>
      cases call with
      | allocate identity tags draw =>
          simp only [amid, called, allocated, Act.allocates, Bool.toNat_true]
          split
          · split
            · exact Nat.le_succ _
            · exact le_rfl
          · exact Nat.le_succ _
      | relocate old new =>
          simp only [amid, called, relocated]
          split <;> exact Nat.le_add_right _ _
      | start instant =>
          simp only [amid, called]
          split
          · exact Nat.le_add_right _ _
          · exact Nat.zero_le _
      | configure settings =>
          simp only [amid, called]
          split <;> exact Nat.le_add_right _ _
      | flush clock =>
          simp only [amid, called]
          split <;> exact Nat.le_add_right _ _
      | release | stop | setGlobalTags | retire => exact Nat.le_add_right _ _

theorem Tally.dropped_ended_le (tally : Tally) (progress : Progress) :
    (tally.ended progress).dropped ≤ tally.dropped := by
  unfold ended
  split
  · exact Nat.sub_le _ _
  all_goals exact le_rfl

def allocations (history : List (Act × Progress)) : Nat :=
  history.countP fun done => done.1.allocates

theorem allocations_cons (act : Act) (progress : Progress) (history : List (Act × Progress)) :
    allocations ((act, progress) :: history) = allocations history + act.allocates.toNat := by
  rw [allocations, List.countP_cons]
  cases act.allocates <;> rfl

theorem Tally.dropped_after_le (valid : ValidSettings) (history : List (Act × Progress)) :
    (Tally.after valid history).dropped ≤ allocations history := by
  induction history with
  | nil => exact le_rfl
  | cons done earlier ih =>
      obtain ⟨act, progress⟩ := done
      have ended_le := ((after valid earlier).amid act).dropped_ended_le progress
      have amid_le := (after valid earlier).dropped_amid_le act
      rw [after, allocations_cons]
      omega

/-- Every machine shows what the tally of its course says. -/
theorem Course.shown {settings : Settings} {valid : ValidSettings}
    {history : List (Act × Progress)} (checked : settings.validate = .ok valid)
    (course : Course settings history machine) (few : allocations history ≤ Store.maxDropped) :
    (Tally.after valid history).Shown machine := by
  induction course with
  | created created =>
      have sound := Collector.sound_of_create created
      unfold Collector.create at created
      rw [checked] at created
      cases created
      refine ⟨sound, fun host => ⟨rfl, rfl, ?_, rfl⟩, rfl, rfl, fun _ member => nomatch member⟩
      rw [Tally.after, Tally.fresh, settings_of_validate checked]
      rfl
  | acted course allowed done ih =>
      rename_i earlier before last act reached
      rw [allocations_cons] at few
      have amid_le := (Tally.after valid earlier).dropped_amid_le act
      have after_le := Tally.dropped_after_le valid earlier
      exact ((ih (by omega)).next allowed (by omega) done).2.2

/--
A collector shows what a set and a counter show.  After every course of calls and answers, further
calls within flushes included, the two agree on whether the collector runs, on the bound, on what is
live and on whether a flush is under way.  They go on agreeing: a flush that succeeds reports the
live samples and the drops as they were when it began, and every other call replies what it would.
The pending drops are a 64-bit number.
-/
theorem tally_of_course {settings : Settings} {valid : ValidSettings}
    {history : List (Act × Progress)} {machine : Machine}
    (checked : settings.validate = .ok valid) (course : Course settings history machine)
    (few : allocations history < Store.maxDropped) :
    machine.collector.running = (Tally.after valid history).running ∧
      machine.collector.store.maxSamples = (Tally.after valid history).maxSamples ∧
      machine.collector.store.liveCount = (Tally.after valid history).live.card ∧
      (∀ identity, machine.collector.store.contains identity = true ↔
        identity ∈ (Tally.after valid history).live) ∧
      machine.collector.flushing = (Tally.after valid history).report.isSome ∧
      ∀ act progress after, act.Allowed machine → machine.act? act = some (progress, after) →
        (∀ profile, progress = .replied (.flushed (.ok profile)) →
          ((Tally.after valid history).amid act).report =
            some (profile.processedCount, profile.droppedCount)) ∧
        ∀ call host, act = .call call host →
          (∀ clock, call = .flush clock → (Tally.after valid history).report.isSome = true) →
          progress = .replied (call.reply (Tally.after valid history).running) := by
  have shown := course.shown checked few.le
  have tells := shown.tells (.uniform [])
  have identities_eq := machine.collector.standing_identities (.uniform [])
  refine ⟨tells.running_eq.symm, tells.maxSamples_eq.symm, ?_, fun identity => ?_,
    shown.flushing_eq, fun act progress after allowed done => ?_⟩
  · rw [tells.live_eq, List.toFinset_card_of_nodup (shown.nodup _), identities_eq,
      List.length_map]
    rfl
  · rw [tells.live_eq, List.mem_toFinset, identities_eq, List.mem_map]
    refine (Collector.contains_iff shown.sound.balanced identity).trans ?_
    exact ⟨fun ⟨handle, listed⟩ => ⟨_, listed, rfl⟩, fun ⟨entry, listed, same⟩ =>
      ⟨entry.2, same ▸ listed⟩⟩
  · have amid_le := (Tally.after valid history).dropped_amid_le act
    have after_le := Tally.dropped_after_le valid history
    have at_most := Bool.toNat_le act.allocates
    obtain ⟨reports, replies, -⟩ := shown.next allowed (by omega) done
    exact ⟨reports, replies⟩

def replayActsFrom (history : List (Act × Progress)) (machine : Machine) :
    List Act → Option (List (Act × Progress) × Machine)
  | [] => some (history, machine)
  | act :: rest =>
      if act.Allowed machine then
        match machine.act? act with
        | some (progress, after) => replayActsFrom ((act, progress) :: history) after rest
        | none => none
      else none

def replayActs (settings : Settings) (acts : List Act) :
    Option (List (Act × Progress) × Machine) :=
  match Collector.create settings with
  | .error _ => none
  | .ok collector => replayActsFrom [] { collector } acts

theorem Course.of_replayActsFrom {settings : Settings} {history whole : List (Act × Progress)}
    {machine last : Machine} {acts : List Act} (course : Course settings history machine)
    (replayed : replayActsFrom history machine acts = some (whole, last)) :
    Course settings whole last := by
  induction acts generalizing history machine with
  | nil =>
      cases replayed
      exact course
  | cons act rest ih =>
      unfold replayActsFrom at replayed
      split at replayed
      · rename_i allowed
        split at replayed
        · rename_i progress after done
          exact ih (course.acted allowed done) replayed
        · cases replayed
      · cases replayed

theorem Course.of_replayActs {settings : Settings} {history : List (Act × Progress)}
    {machine : Machine} {acts : List Act}
    (replayed : replayActs settings acts = some (history, machine)) :
    Course settings history machine := by
  unfold replayActs at replayed
  split at replayed
  · cases replayed
  · rename_i collector created
    exact (Course.created created).of_replayActsFrom replayed

/-- While a flush of two samples waits, one of them is released and two allocations are made. -/
def allocatedWhileSymbolized : List Act :=
  let host := Host.uniform [⟨"work", "work.rb", 7⟩]
  [.call (.start 0) host, .call (.allocate ⟨1⟩ [] 0) host, .call (.allocate ⟨2⟩ [] 0) host,
    .call (.allocate ⟨3⟩ [] 0) host, .call (.flush ⟨0, 0⟩) host, .call (.release ⟨2⟩) host,
    .call (.allocate ⟨4⟩ [] 0) host, .call (.allocate ⟨5⟩ [] 0) host, .answer host]

theorem tally_of_allocatedWhileSymbolized :
    ∃ history machine profile after,
      Course { sampleRate := 1, maxSamples := 2, compression := .none } history machine ∧
      machine.collector.store.liveCount = 2 ∧
      machine.act? (.answer (.uniform [⟨"work", "work.rb", 7⟩])) =
        some (.replied (.flushed (.ok profile)), after) ∧
      profile.processedCount = 2 ∧ profile.droppedCount = 1 := by
  have rate : SampleRate.ofFraction? 1 = some .always := by decide +kernel
  have checked : Settings.validate { sampleRate := 1, maxSamples := 2, compression := .none } =
      .ok ⟨.always, { sampleRate := 1, maxSamples := 2, compression := .none }⟩ := by
    simp [Settings.validate, rate, defaultMaxProfileBytes, TagMap.hasEmptyKey, TagMap.empty]
  let valid : ValidSettings := ⟨.always, { sampleRate := 1, maxSamples := 2, compression := .none }⟩
  obtain ⟨⟨history, machine⟩, replayed, passed⟩ := (Option.any_eq_true _ _).mp
    (show (replayActs { sampleRate := 1, maxSamples := 2, compression := .none }
      allocatedWhileSymbolized).any (fun course =>
        let tally := Tally.after valid course.1
        decide (allocations course.1 < Store.maxDropped) && tally.live.card == 2 &&
          tally.report == some (2, 1) &&
          (course.2.act? (.answer (.uniform [⟨"work", "work.rb", 7⟩]))).any
            fun reached => reached.1.profile?.isSome) = true by decide +kernel)
  simp only [Bool.and_eq_true, decide_eq_true_eq, beq_iff_eq] at passed
  obtain ⟨⟨⟨few, card_eq⟩, report_eq⟩, exported⟩ := passed
  obtain ⟨⟨progress, after⟩, done, exports⟩ := (Option.any_eq_true _ _).mp exported
  obtain ⟨profile, found⟩ := Option.isSome_iff_exists.mp exports
  obtain rfl := Progress.profile?_eq_some found
  have course := Course.of_replayActs replayed
  obtain ⟨-, -, count_eq, -, -, agrees⟩ := tally_of_course checked course few
  have allowed : (Act.answer (.uniform [⟨"work", "work.rb", 7⟩])).Allowed machine := trivial
  have reported := (agrees _ _ after allowed done).1 profile rfl
  obtain ⟨processed, dropped⟩ := Prod.mk.inj (Option.some.inj (report_eq.symm.trans reported))
  exact ⟨history, machine, profile, after, course, count_eq.trans card_eq, done,
    processed.symm, dropped.symm⟩

end HeapSampler
