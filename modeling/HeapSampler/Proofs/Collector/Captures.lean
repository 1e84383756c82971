import Mathlib
import HeapSampler.Proofs.Collector.Drops
import HeapSampler.Proofs.Collector.Frame
import HeapSampler.Proofs.Collector.Scene

/-!
# What becomes of a sampled allocation

An allocation that is sampled asks for its call stack, and anything can happen before the answer
comes: other allocations that ask in their turn, releases, moves, a lower bound, the end of the
session.  So there are two looks for room.  All the same nothing becomes live beyond the bound in
force, and each sampled allocation comes to exactly one end: its identity is live with a fresh
sample, or it is counted as a drop, or the collector was stopped meanwhile and nothing is done.
-/

namespace HeapSampler

/-! ## The three ends -/

inductive Outcome where
  | recorded
  | dropped
  | abandoned
  deriving DecidableEq, Repr

/-- What was live under an identity has been released; the rest of the live table is as it was. -/
structure Store.Vacates (before : Store) (identity : Identity) (middle : Store) : Prop where
  live_eq : middle.live = (before.unlist identity).live
  survives : ∀ handle sample, middle.sample? handle = some sample →
    ∃ old, before.sample? handle = some old ∧ old.Ages sample
  released : ∀ handle sample, (identity, handle) ∈ before.live →
    middle.sample? handle = some sample → sample.isReleased = true

namespace Collector

/-- The identity is live with a fresh sample; what was live under it had been released before. -/
structure Records (before : Collector) (identity : Identity) (stack : Backtrace) (middle : Store)
    (handle : Handle) (after : Collector) : Prop where
  running : before.running = true
  framed : before.Framed after
  vacates : before.store.Vacates identity middle
  room : middle.liveCount < before.store.maxSamples
  fresh : middle.sample? handle = none
  live_eq : after.store.live = middle.live ++ [(identity, handle)]
  found : ∃ tags, after.store.sample? handle = some (.new identity tags stack)
  others : ∀ other, other ≠ handle → after.store.sample? other = middle.sample? other
  dropped_eq : after.store.dropped = before.store.dropped

/-- The allocation is counted as a drop; what was live under its identity is not live any more. -/
structure Refuses (before : Collector) (identity : Identity) (middle : Store) (after : Collector) :
    Prop where
  running : before.running = true
  framed : before.Framed after
  vacates : before.store.Vacates identity middle
  full : before.store.maxSamples ≤ middle.liveCount
  live_eq : after.store.live = middle.live
  others : ∀ other, after.store.sample? other = middle.sample? other
  /-- The count is a 64-bit number. -/
  counted : after.store.dropped = (before.store.dropped + 1) % (Store.maxDropped + 1)

/-- The table has the bound that is set. -/
def InForce (collector : Collector) : Prop :=
  collector.store.maxSamples = collector.settings.settings.maxSamples

structure Shrinks (before after : Collector) : Prop where
  liveCount_le : after.store.liveCount ≤ before.store.liveCount
  inForce : before.InForce → after.InForce

variable {collector after : Collector} {identity : Identity} {held : List Handle}
  {progress : Progress}

theorem Framed.inForce (framed : collector.Framed after) (before : collector.InForce) :
    after.InForce := by
  rw [InForce, framed.maxSamples_eq, framed.settings_eq]
  exact before

/-! ## The answer to a capture -/

theorem vacates_of_ages {before middle : Inventory} {spare : List StringId}
    (balanced : before.Balanced [] held spare) (balanced' : middle.Balanced [] held spare)
    (aged : before.Ages middle spare)
    (live_eq : middle.store.live = (before.store.unlist identity).live) :
    before.store.Vacates identity middle.store where
  live_eq := live_eq
  survives _ _ found := aged.survives found
  released handle sample listed found := by
    have distinct := balanced.handles_nodup
    rw [List.append_nil] at distinct
    rw [balanced'.released_iff found, List.append_nil, live_eq]
    intro still
    obtain ⟨⟨own, place⟩, remains, rfl⟩ := List.mem_map.mp still
    obtain ⟨before_listed, apart⟩ := List.mem_filter.mp remains
    cases List.inj_on_of_nodup_map distinct before_listed listed rfl
    exact of_decide_eq_true apart rfl

theorem ends_of_resumeCapture {tags : List (String × String)} {stack : Backtrace}
    (balanced : collector.inventory.Balanced [] held []) (running : collector.running = true)
    (went : collector.resumeCapture identity tags stack = .ok after) :
    (∃ middle handle, collector.Records identity stack middle handle after) ∨
      ∃ middle, collector.Refuses identity middle after := by
  obtain ⟨tables, ids, inventory, result, -, -, spared, recorded, rfl⟩ :=
    exists_recorded balanced running went
  obtain ⟨middle, balanced', aged, live_eq, -, outcome⟩ :=
    spared.recordAllocation (.of_eq (List.append_nil _).symm) recorded
  -- What was live under the identity goes first, so it makes room for the new sample itself.
  have vacates := vacates_of_ages spared balanced' aged live_eq
  have max_eq : middle.store.maxSamples = collector.store.maxSamples := aged.maxSamples_eq
  have dropped_eq : middle.store.dropped = collector.store.dropped := aged.dropped_eq
  rcases outcome with ⟨full, -, store_eq, -⟩ | ⟨room, -, arena, handle, unowned, reads, rfl⟩
  · refine .inr ⟨middle.store, ?_⟩
    have store_eq : Collector.store { collector with inventory } = middle.store.recordDrop :=
      store_eq
    exact {
      running
      framed := ⟨rfl, rfl, rfl, by rw [store_eq]; exact max_eq⟩
      vacates
      full := max_eq ▸ of_decide_eq_true full
      live_eq := by rw [store_eq]; rfl
      others := fun other => by rw [store_eq]; rfl
      counted := by
        rw [store_eq, ← dropped_eq]
        rfl }
  · refine .inl ⟨middle.store, handle, ?_⟩
    exact {
      running
      framed := ⟨rfl, rfl, rfl, max_eq⟩
      vacates
      room := max_eq ▸ not_le.mp (of_decide_eq_false room)
      fresh := by
        cases found : middle.store.sample? handle with
        | none => rfl
        | some sample => exact absurd (balanced'.exists_sample_iff.mp ⟨sample, found⟩) unowned
      live_eq := rfl
      found := ⟨ids, (reads handle).trans (if_pos rfl)⟩
      others := fun other apart => (reads other).trans (if_neg apart)
      dropped_eq }

/-- An allocation for which there is no room, of an object that is not live. -/
theorem refuses_of_full (running : collector.running = true)
    (full : collector.store.isFull = true) (absent : collector.store.contains identity = false) :
    collector.Refuses identity collector.store
      (collector.withStore collector.store.recordDrop) where
  running := running
  framed := ⟨rfl, rfl, rfl, rfl⟩
  vacates := by
    have missing : collector.store.handle? identity = none := by
      simpa [Store.contains] using absent
    have unlisted := Inventory.Balanced.handle?_eq_none_iff.mp missing
    refine ⟨?_, fun _ sample found => ⟨sample, found, .refl sample⟩, fun handle _ listed => ?_⟩
    · rw [eq_comm, Store.unlist, List.filter_eq_self]
      rintro ⟨own, handle⟩ listed
      rw [decide_eq_true_eq]
      rintro rfl
      exact unlisted handle listed
    · exact absurd listed (unlisted handle)
  full := of_decide_eq_true full
  live_eq := rfl
  others _ := rfl
  counted := rfl

/-! ## Calls that record nothing -/

/-- A call that has returned asks for nothing more. -/
theorem not_waiting {reply : Reply} {Asks : Suspended → Prop} :
    ∀ suspended, Progress.replied reply = .waiting suspended → Asks suspended := by
  intro suspended same
  cases same

theorem Shrinks.of_ages {inventory : Inventory} {spare : List StringId}
    (fewer : inventory.store.live.length ≤ collector.store.live.length)
    (aged : collector.inventory.Ages inventory spare) :
    collector.Shrinks { collector with inventory } :=
  ⟨fewer, fun before => aged.maxSamples_eq.trans before⟩

/-- A moved entry is listed once more only after it has been struck. -/
theorem length_relocated {live : List (Identity × Handle)} {old new : Identity} {handle : Handle}
    (listed : (old, handle) ∈ live) :
    (((live.filter fun entry => entry.1 ≠ old).filter fun entry => entry.1 ≠ new) ++
      [(new, handle)]).length ≤ live.length := by
  have struck : (live.filter fun entry => entry.1 ≠ old).length < live.length :=
    List.length_filter_lt_length_iff_exists.mpr ⟨_, listed, by simp⟩
  have others := List.length_filter_le (fun entry : Identity × Handle => entry.1 ≠ new)
    (live.filter fun entry => entry.1 ≠ old)
  rw [List.length_append, List.length_singleton]
  omega

theorem shrinks_of_halt {refusal : Reply}
    (went : (if collector.running then
        ({ collector with running := false }, Progress.waiting .unsubscribing)
      else (collector, .replied refusal)) = (after, progress)) :
    collector.Shrinks after ∧ ∀ suspended, progress = .waiting suspended →
      suspended = .unsubscribing := by
  split at went
  · cases went
    exact ⟨⟨le_rfl, id⟩, fun suspended same => by cases same; rfl⟩
  · cases went
    exact ⟨⟨le_rfl, id⟩, not_waiting⟩

/-- A call other than an allocation and the beginning of a flush. -/
theorem shrinks_of_call {call : Call} (balanced : collector.inventory.Balanced [] held [])
    (unsampled : ∀ identity tags draw, call ≠ .allocate identity tags draw)
    (passing : ∀ clock, call = .flush clock → collector.flushing = true)
    (went : collector.call call = .ok (after, progress)) :
    collector.Shrinks after ∧ ∀ suspended, progress = .waiting suspended →
      suspended = .subscribing ∨ suspended = .unsubscribing := by
  cases call with
  | allocate identity tags draw => exact absurd rfl (unsampled identity tags draw)
  | release identity =>
      obtain ⟨inventory, released, -, live_eq, aged⟩ := balanced.recordRelease identity
      simp only [Collector.call, release, released, bind, Except.bind, pure, Except.pure,
        Except.map, Except.ok.injEq, Prod.mk.injEq] at went
      obtain ⟨rfl, rfl⟩ := went
      refine ⟨.of_ages ?_ aged, not_waiting⟩
      rw [live_eq]
      exact List.length_filter_le _ _
  | relocate old new =>
      obtain ⟨inventory, relocated, -, aged, live_eq⟩ := balanced.recordRelocation old new
      simp only [Collector.call, relocate, relocated, bind, Except.bind, pure, Except.pure,
        Except.map, Except.ok.injEq, Prod.mk.injEq] at went
      obtain ⟨rfl, rfl⟩ := went
      refine ⟨.of_ages ?_ aged, not_waiting⟩
      rw [live_eq]
      split
      · exact le_rfl
      · split
        · exact le_rfl
        · rename_i handle found
          exact length_relocated (balanced.handle?_eq_some_iff.mp found)
  | start instant =>
      rcases start_cases balanced went with
        ⟨-, rfl, rfl⟩ | ⟨-, rfl, cleared, -, none_live, aged, rfl⟩
      · exact ⟨⟨le_rfl, id⟩, not_waiting⟩
      · refine ⟨⟨?_, fun before => aged.maxSamples_eq.trans before⟩, fun suspended same => ?_⟩
        · change cleared.store.live.length ≤ collector.store.live.length
          rw [none_live]
          exact Nat.zero_le _
        · cases same
          exact .inl rfl
  | stop =>
      obtain ⟨shrinks, asks⟩ := shrinks_of_halt (Except.ok.inj went)
      exact ⟨shrinks, fun suspended same => .inr (asks suspended same)⟩
  | retire =>
      obtain ⟨shrinks, asks⟩ := shrinks_of_halt (Except.ok.inj went)
      exact ⟨shrinks, fun suspended same => .inr (asks suspended same)⟩
  | configure settings =>
      simp only [Collector.call, configure, Except.ok.injEq, Prod.mk.injEq] at went
      obtain ⟨rfl, rfl⟩ := went
      refine ⟨?_, not_waiting⟩
      split
      · exact ⟨le_rfl, id⟩
      · rename_i valid checked
        refine ⟨le_rfl, fun _ => ?_⟩
        rw [InForce, settings_of_validate checked]
        rfl
  | setGlobalTags tags =>
      simp only [Collector.call, setGlobalTags, Except.ok.injEq, Prod.mk.injEq] at went
      obtain ⟨rfl, rfl⟩ := went
      refine ⟨?_, not_waiting⟩
      split
      · exact ⟨le_rfl, id⟩
      · exact ⟨le_rfl, id⟩
  | flush clock =>
      simp only [Collector.call, flush, passing clock rfl, if_true, Except.ok.injEq,
        Prod.mk.injEq] at went
      obtain ⟨rfl, rfl⟩ := went
      exact ⟨⟨le_rfl, id⟩, not_waiting⟩

end Collector

/-! ## Open captures -/

def Suspended.captures : Suspended → Bool
  | capturing .. => true
  | symbolizing .. | measuring .. | subscribing | unsubscribing => false

inductive CaptureEvent where
  /-- One asks for its call stack. -/
  | opened
  /-- One is dropped at once. -/
  | refused
  /-- The latest one that has asked gets its answer. -/
  | answered
  | none
  deriving DecidableEq, Repr

namespace Moment

/-- Whether an allocation is reported that passes the checks for running and for sampling. -/
def samples (moment : Moment) : Bool :=
  match moment.move with
  | .call (.allocate _ _ draw) =>
      moment.before.collector.running && moment.before.collector.settings.rate.admits draw
  | _ => false

def captureEvent (moment : Moment) : CaptureEvent :=
  match moment.move, moment.before.waiting with
  | .call _, _ =>
      if moment.samples then
        match moment.progress with
        | .waiting _ => .opened
        | .replied _ => .refused
      else .none
  | .answer _, .capturing _ _ :: _ => .answered
  | .answer _, _ | .rehash _, _ => .none

def Ends (moment : Moment) (identity : Identity) : Outcome → Prop
  | .recorded => ∃ host middle handle, moment.move = .answer host ∧
      moment.before.collector.Records identity host.stack middle handle moment.after.collector
  | .dropped => ∃ middle,
      moment.before.collector.Refuses identity middle moment.after.collector
  | .abandoned => moment.before.collector.running = false ∧
      moment.after.collector = moment.before.collector

end Moment

def openCaptures : List Moment → List Moment
  | [] => []
  | moment :: earlier =>
      match moment.captureEvent with
      | .opened => moment :: openCaptures earlier
      | .answered => (openCaptures earlier).tail
      | .refused | .none => openCaptures earlier

/-- The sampled allocations that have ended: when each was reported, and when it ended. -/
def endedAllocations : List Moment → List (Moment × Moment)
  | [] => []
  | moment :: earlier =>
      match moment.captureEvent with
      | .refused => (moment, moment) :: endedAllocations earlier
      | .answered =>
          (openCaptures earlier).head?.toList.map (·, moment) ++ endedAllocations earlier
      | .opened | .none => endedAllocations earlier

/-- An allocation is sampled, and all that happens is that it asks for its call stack. -/
structure Moment.Opens (opening : Moment) (identity : Identity) (tags : List (String × String)) :
    Prop where
  samples : opening.samples = true
  move_eq : ∃ draw, opening.move = .call (.allocate identity tags draw)
  waiting_eq : opening.after.waiting = .capturing identity tags :: opening.before.waiting
  unchanged : opening.after.collector = opening.before.collector

/-- The calls that wait are these allocations and others, each above what waited when it began. -/
inductive Awaited : List Moment → List Suspended → Prop
  | nil : Awaited [] []
  | capture {opening : Moment} {openings : List Moment} {identity : Identity}
      {tags : List (String × String)} (opens : opening.Opens identity tags)
      (others : Awaited openings opening.before.waiting) :
      Awaited (opening :: openings) (.capturing identity tags :: opening.before.waiting)
  | other {openings : List Moment} {suspended : Suspended} {outer : List Suspended}
      (other : suspended.captures = false) (others : Awaited openings outer) :
      Awaited openings (suspended :: outer)

/-- A sampled allocation comes to one end: at once, or with the answer to its own request. -/
structure Moment.Concludes (opening ending : Moment) (identity : Identity)
    (tags : List (String × String)) : Prop where
  samples : opening.samples = true
  move_eq : ∃ draw, opening.move = .call (.allocate identity tags draw)
  same_call : ending = opening ∨
    opening.after.collector = opening.before.collector ∧
      ∃ host, ending.move = .answer host ∧
        ending.before.waiting = .capturing identity tags :: opening.before.waiting
  returned : ending.progress = .replied .noted
  outcome : ∃! outcome, ending.Ends identity outcome

variable {settings : Settings} {history : List Moment} {machine after : Machine} {move : Move}
  {progress : Progress} {moment : Moment} {identity : Identity}

/-- An allocation does not end in two ways. -/
theorem Moment.Ends.unique {outcome outcome' : Outcome} (ends : moment.Ends identity outcome)
    (ends' : moment.Ends identity outcome') : outcome = outcome' := by
  have listed {host : Host} {middle : Store} {handle : Handle} {middle' : Store}
      (records : moment.before.collector.Records identity host.stack middle handle
        moment.after.collector)
      (refuses : moment.before.collector.Refuses identity middle' moment.after.collector) :
      False := by
    have member : (identity, handle) ∈ moment.after.collector.store.live := by
      rw [records.live_eq]
      exact List.mem_append_right _ (List.mem_singleton_self _)
    rw [refuses.live_eq, refuses.vacates.live_eq] at member
    exact of_decide_eq_true (List.mem_filter.mp member).2 rfl
  have runs {running : Prop} (now : moment.before.collector.running = true)
      (stopped : moment.before.collector.running = false) : running := by
    rw [now] at stopped
    cases stopped
  cases outcome with
  | recorded =>
      obtain ⟨host, middle, handle, -, records⟩ := ends
      cases outcome' with
      | recorded => rfl
      | dropped =>
          obtain ⟨middle', refuses⟩ := ends'
          exact absurd refuses (listed records)
      | abandoned => exact runs records.running ends'.1
  | dropped =>
      obtain ⟨middle, refuses⟩ := ends
      cases outcome' with
      | recorded =>
          obtain ⟨host, middle', handle, -, records⟩ := ends'
          exact absurd refuses (listed records)
      | dropped => rfl
      | abandoned => exact runs refuses.running ends'.1
  | abandoned =>
      cases outcome' with
      | recorded =>
          obtain ⟨host, middle, handle, -, records⟩ := ends'
          exact runs records.running ends.1
      | dropped =>
          obtain ⟨middle, refuses⟩ := ends'
          exact runs refuses.running ends.1
      | abandoned => rfl

namespace Machine

inductive CaptureStep (before : Machine) (move : Move) (progress : Progress) (after : Machine) :
    Prop where
  | opens {identity : Identity} {tags : List (String × String)}
      (event : Moment.captureEvent ⟨before, move, progress, after⟩ = .opened)
      (opens : Moment.Opens ⟨before, move, progress, after⟩ identity tags)
  | refuses {identity : Identity} {tags : List (String × String)}
      (event : Moment.captureEvent ⟨before, move, progress, after⟩ = .refused)
      (sampled : Moment.samples ⟨before, move, progress, after⟩ = true)
      (move_eq : ∃ draw, move = .call (.allocate identity tags draw))
      (ends : Moment.Ends ⟨before, move, progress, after⟩ identity .dropped)
      (returned : progress = .replied .noted) (waiting_eq : after.waiting = before.waiting)
  | answers {host : Host} {identity : Identity} {tags : List (String × String)}
      {outer : List Suspended} {outcome : Outcome} (move_eq : move = .answer host)
      (before_eq : before.waiting = .capturing identity tags :: outer)
      (returned : progress = .replied .noted) (waiting_eq : after.waiting = outer)
      (ends : Moment.Ends ⟨before, move, progress, after⟩ identity outcome)
  | aside (event : Moment.captureEvent ⟨before, move, progress, after⟩ = .none)
      (unsampled : Moment.samples ⟨before, move, progress, after⟩ = false)
      (awaited : ∀ openings, Awaited openings before.waiting → Awaited openings after.waiting)
      (shrinks : before.collector.Shrinks after.collector)

theorem captures_eq_false {suspended : Suspended} {cycle : Cycle}
    (inside : suspended.cycle? = some cycle) : suspended.captures = false := by
  cases suspended with
  | symbolizing => rfl
  | measuring => rfl
  | capturing => cases inside
  | subscribing => cases inside
  | unsubscribing => cases inside

/-- A call that does not ask for a call stack leaves those open that are. -/
theorem awaited_onto {openings : List Moment} {outer : List Suspended}
    (asks : ∀ suspended, progress = .waiting suspended → suspended.captures = false)
    (awaited : Awaited openings outer) : Awaited openings (progress.onto outer) := by
  cases progress with
  | replied reply => exact awaited
  | waiting suspended => exact .other (asks suspended rfl) awaited

/-- What a stretch of a flush means for the allocations that wait. -/
theorem shrinks_of_carries {cycle : Cycle} {included : List Handle} {pending : Nat}
    (framed : machine.collector.Framed after.collector)
    (carries : Collector.Carries cycle included machine.collector.store.live pending
      after.collector progress) :
    machine.collector.Shrinks after.collector ∧
      ∀ suspended, progress = .waiting suspended → suspended.captures = false := by
  refine ⟨⟨?_, framed.inForce⟩, fun suspended same => ?_⟩
  · rw [Store.liveCount, carries.live_eq]
    exact le_rfl
  · subst same
    obtain ⟨-, -, -, -, -, -, skipped, inside⟩ := carries
    exact captures_eq_false inside

theorem Sound.captureStep_of_allocate {tags : List (String × String)} {draw : UInt32}
    (stepped : machine.step? (.call (.allocate identity tags draw)) = some (progress, after)) :
    machine.CaptureStep (.call (.allocate identity tags draw)) progress after := by
  obtain ⟨went, waiting_eq⟩ := step?_call stepped
  have went := Except.ok.inj went
  rw [Collector.allocate] at went
  split at went
  · rename_i skipped
    obtain ⟨after_eq, rfl⟩ := Prod.mk.inj went
    have unsampled : Moment.samples
        ⟨machine, .call (.allocate identity tags draw), .replied .noted, after⟩ = false := by
      cases running : machine.collector.running with
      | false => simp [Moment.samples, running]
      | true =>
          have refused : machine.collector.settings.rate.admits draw = false := by
            simpa [running] using skipped
          simp [Moment.samples, running, refused]
    refine .aside ?_ unsampled (fun _ awaited => by rw [waiting_eq]; exact awaited) ?_
    · rw [Moment.captureEvent, unsampled]
      rfl
    · rw [← after_eq]
      exact ⟨le_rfl, id⟩
  · rename_i due
    obtain ⟨running, admitted⟩ : machine.collector.running = true ∧
        machine.collector.settings.rate.admits draw = true := by simpa using due
    have sampled (progress : Progress) : Moment.samples
        ⟨machine, .call (.allocate identity tags draw), progress, after⟩ = true := by
      simp [Moment.samples, running, admitted]
    split at went
    -- The first look for room, which passes over an object that would replace a live one.
    · rename_i full
      obtain ⟨after_eq, rfl⟩ := Prod.mk.inj went
      rw [Bool.and_eq_true, Bool.not_eq_true'] at full
      refine .refuses ?_ (sampled _) ⟨draw, rfl⟩ ⟨machine.collector.store, ?_⟩ rfl waiting_eq
      · rw [Moment.captureEvent, sampled]
        rfl
      · rw [← after_eq]
        exact Collector.refuses_of_full running full.1 full.2
    · obtain ⟨after_eq, rfl⟩ := Prod.mk.inj went
      refine .opens ?_ ⟨sampled _, ⟨draw, rfl⟩, waiting_eq, after_eq.symm⟩
      rw [Moment.captureEvent, sampled]
      rfl

theorem Sound.captureStep_of_call {call : Call} (sound : machine.Sound)
    (unsampled : ∀ identity tags draw, call ≠ .allocate identity tags draw)
    (stepped : machine.step? (.call call) = some (progress, after)) :
    machine.CaptureStep (.call call) progress after := by
  have not_sampled : Moment.samples ⟨machine, .call call, progress, after⟩ = false := by
    cases call with
    | allocate identity tags draw => exact absurd rfl (unsampled identity tags draw)
    | _ => rfl
  have event : Moment.captureEvent ⟨machine, .call call, progress, after⟩ = .none := by
    rw [Moment.captureEvent, not_sampled]
    rfl
  obtain ⟨went, waiting_eq⟩ := step?_call stepped
  rcases Collector.call_cases sound.balanced went with
    ⟨clock, rfl, idle, flushed⟩ | ⟨passing, -, -⟩
  · obtain ⟨shrinks, asks⟩ := shrinks_of_carries
      (Collector.framed_of_flush idle (sound.balanced_idle idle) flushed)
      (sound.carries_of_flush idle flushed)
    exact .aside event not_sampled (fun _ awaited => waiting_eq ▸ awaited_onto asks awaited) shrinks
  · obtain ⟨shrinks, asks⟩ := Collector.shrinks_of_call sound.balanced unsampled passing went
    refine .aside event not_sampled (fun _ awaited => waiting_eq ▸ awaited_onto ?_ awaited) shrinks
    intro suspended same
    rcases asks suspended same with rfl | rfl
    · rfl
    · rfl

/-- How an allocation ends with the answer to its capture. -/
theorem Sound.exists_ends {host : Host} {tags : List (String × String)} (sound : machine.Sound)
    (resumed : machine.collector.resumeCapture identity tags host.stack = .ok after.collector) :
    ∃ outcome, Moment.Ends ⟨machine, .answer host, progress, after⟩ identity outcome := by
  cases running : machine.collector.running with
  | false =>
      have unchanged := (Collector.resumeCapture_of_stopped running).symm.trans resumed
      exact ⟨.abandoned, running, (Except.ok.inj unchanged).symm⟩
  | true =>
      rcases Collector.ends_of_resumeCapture sound.balanced running resumed with
        ⟨middle, handle, records⟩ | ⟨middle, refuses⟩
      · exact ⟨.recorded, host, middle, handle, rfl, records⟩
      · exact ⟨.dropped, middle, refuses⟩

theorem Sound.shrinks_of_answer {host : Host} {suspended : Suspended} {outer : List Suspended}
    {cycle : Cycle} (sound : machine.Sound) (waiting : machine.waiting = suspended :: outer)
    (inside : suspended.cycle? = some cycle)
    (stepped : machine.step? (.answer host) = some (progress, after)) :
    machine.collector.Shrinks after.collector ∧
      ∀ next, progress = .waiting next → next.captures = false := by
  cases sound.passage stepped with
  | begins move_eq => cases move_eq
  | passes foreign =>
      cases foreign with
      | answer other_eq outside =>
          cases waiting.symm.trans other_eq
          rw [inside] at outside
          cases outside
  | proceeds move_eq before_eq within cycles_eq flushing went waiting_eq =>
      cases move_eq
      cases waiting.symm.trans before_eq
      have listed : suspended ∈ machine.waiting := waiting ▸ List.mem_cons_self
      have framed := Collector.framed_of_resume within (sound.balanced_underway listed within)
        (sound.waiting suspended listed) went
      exact shrinks_of_carries framed (sound.carries_of_resume waiting within flushing went)

theorem Sound.captureStep_of_answer {host : Host} (sound : machine.Sound)
    (stepped : machine.step? (.answer host) = some (progress, after)) :
    machine.CaptureStep (.answer host) progress after := by
  obtain ⟨suspended, outer, waiting, went, waiting_eq⟩ := step?_answer stepped
  have aside (other : suspended.captures = false)
      (asks : ∀ next, progress = .waiting next → next.captures = false)
      (shrinks : machine.collector.Shrinks after.collector) :
      machine.CaptureStep (.answer host) progress after := by
    refine .aside ?_ rfl (fun openings before => ?_) shrinks
    · simp only [Moment.captureEvent, waiting]
      cases suspended with
      | capturing => cases other
      | _ => rfl
    · rw [waiting] at before
      rw [waiting_eq]
      cases before with
      | capture => cases other
      | other _ others => exact awaited_onto asks others
  cases inside : suspended.cycle? with
  | some cycle =>
      obtain ⟨shrinks, asks⟩ := sound.shrinks_of_answer waiting inside stepped
      exact aside (captures_eq_false inside) asks shrinks
  | none =>
      rcases Collector.resume_outside inside went with
        ⟨identity, tags, rfl, resumed, rfl⟩ | ⟨either, after_eq, rfl⟩
      · obtain ⟨outcome, ends⟩ := sound.exists_ends resumed
        exact .answers rfl waiting rfl waiting_eq ends
      · refine aside ?_ Collector.not_waiting (after_eq ▸ ⟨le_rfl, id⟩)
        rcases either with rfl | rfl
        · rfl
        · rfl

theorem captureStep_of_rehash {live : List (Identity × Handle)}
    (stepped : machine.step? (.rehash live) = some (progress, after)) :
    machine.CaptureStep (.rehash live) progress after := by
  obtain ⟨shuffled, rfl, rfl⟩ := step?_rehash stepped
  exact .aside rfl rfl (fun _ before => before) ⟨shuffled.length_eq.ge, id⟩

theorem Sound.captureStep (sound : machine.Sound)
    (stepped : machine.step? move = some (progress, after)) :
    machine.CaptureStep move progress after := by
  cases move with
  | answer host => exact sound.captureStep_of_answer stepped
  | rehash live => exact captureStep_of_rehash stepped
  | call call =>
      cases call with
      | allocate identity tags draw => exact Sound.captureStep_of_allocate stepped
      | _ => exact sound.captureStep_of_call (fun _ _ _ same => by cases same) stepped

/-! ## The bound -/

/-- Striking an identity makes nothing live. -/
theorem liveCount_le_of_vacates {before middle : Store} (vacates : before.Vacates identity middle) :
    middle.liveCount ≤ before.liveCount := by
  rw [Store.liveCount, vacates.live_eq]
  exact List.length_filter_le _ _

structure Within (before after : Collector) : Prop where
  inForce : before.InForce → after.InForce
  bounded : before.store.liveCount < after.store.liveCount →
    after.store.liveCount ≤ before.store.maxSamples ∧
      after.store.maxSamples = before.store.maxSamples

theorem within_of_shrinks {before after : Collector} (shrinks : before.Shrinks after) :
    Within before after :=
  ⟨shrinks.inForce, fun raised => absurd shrinks.liveCount_le (not_le.mpr raised)⟩

theorem within_of_ends {outcome : Outcome}
    (ends : Moment.Ends ⟨machine, move, progress, after⟩ identity outcome) :
    Within machine.collector after.collector := by
  cases outcome with
  | recorded =>
      obtain ⟨host, middle, handle, -, records⟩ := ends
      have length_eq : after.collector.store.liveCount = middle.liveCount + 1 := by
        rw [Store.liveCount, records.live_eq, List.length_append]
        rfl
      refine ⟨records.framed.inForce, fun _ => ⟨?_, records.framed.maxSamples_eq⟩⟩
      rw [length_eq]
      exact records.room
  | dropped =>
      obtain ⟨middle, refuses⟩ := ends
      refine within_of_shrinks ⟨?_, refuses.framed.inForce⟩
      have fewer := liveCount_le_of_vacates refuses.vacates
      rw [Store.liveCount, refuses.live_eq]
      exact fewer
  | abandoned =>
      refine within_of_shrinks ?_
      rw [show after.collector = machine.collector from ends.2]
      exact ⟨le_rfl, id⟩

theorem CaptureStep.within (captured : machine.CaptureStep move progress after) :
    Within machine.collector after.collector := by
  cases captured with
  | opens event opens =>
      refine within_of_shrinks ?_
      rw [show after.collector = machine.collector from opens.unchanged]
      exact ⟨le_rfl, id⟩
  | refuses event sampled move_eq ends returned waiting_eq => exact within_of_ends ends
  | answers move_eq before_eq returned waiting_eq ends => exact within_of_ends ends
  | aside event unsampled awaited shrinks => exact within_of_shrinks shrinks

end Machine

/-! ## Runs -/

theorem inForce_of_run (run : Run settings history machine) : machine.collector.InForce := by
  induction run with
  | created created =>
      unfold Collector.create at created
      split at created
      · rename_i valid checked
        cases created
        rw [Collector.InForce, settings_of_validate checked]
        rfl
      · cases created
  | moved run stepped ih => exact (run.sound.captureStep stepped).within.inForce ih

/-- Every sampled allocation of a history has ended once or is one of the calls that wait. -/
structure Followed (history : List Moment) (machine : Machine) : Prop where
  awaited : Awaited (openCaptures history) machine.waiting
  parted : ((endedAllocations history).map Prod.fst ++ openCaptures history).Perm
    (history.filter Moment.samples)
  ended : ∀ pair ∈ endedAllocations history, pair.2 ∈ history ∧
    ∃ identity tags, pair.1.Concludes pair.2 identity tags

namespace Followed

variable {tags : List (String × String)}

theorem ended_cons (followed : Followed history machine) :
    ∀ pair ∈ endedAllocations history, pair.2 ∈ moment :: history ∧
      ∃ identity tags, pair.1.Concludes pair.2 identity tags := by
  intro pair listed
  obtain ⟨member, concludes⟩ := followed.ended pair listed
  exact ⟨List.mem_cons_of_mem _ member, concludes⟩

theorem opens (followed : Followed history machine)
    (event : Moment.captureEvent ⟨machine, move, progress, after⟩ = .opened)
    (opens : Moment.Opens ⟨machine, move, progress, after⟩ identity tags) :
    Followed (⟨machine, move, progress, after⟩ :: history) after where
  awaited := by
    simp only [openCaptures, event]
    rw [show after.waiting = _ from opens.waiting_eq]
    exact .capture opens followed.awaited
  parted := by
    simp only [openCaptures, endedAllocations, event]
    rw [List.filter_cons_of_pos opens.samples]
    exact List.perm_middle.trans (followed.parted.cons _)
  ended := by
    simp only [endedAllocations, event]
    exact followed.ended_cons

theorem refuses (followed : Followed history machine)
    (event : Moment.captureEvent ⟨machine, move, progress, after⟩ = .refused)
    (concludes : Moment.Concludes ⟨machine, move, progress, after⟩
      ⟨machine, move, progress, after⟩ identity tags)
    (waiting_eq : after.waiting = machine.waiting) :
    Followed (⟨machine, move, progress, after⟩ :: history) after where
  awaited := by
    simp only [openCaptures, event, waiting_eq]
    exact followed.awaited
  parted := by
    simp only [openCaptures, endedAllocations, event]
    rw [List.filter_cons_of_pos concludes.samples]
    exact followed.parted.cons _
  ended := by
    simp only [endedAllocations, event]
    exact List.forall_mem_cons.mpr
      ⟨⟨List.mem_cons_self .., identity, tags, concludes⟩, followed.ended_cons⟩

theorem answers {host : Host} {outer : List Suspended} {outcome : Outcome}
    (followed : Followed history machine)
    (waiting : machine.waiting = .capturing identity tags :: outer)
    (returned : progress = .replied .noted) (waiting_eq : after.waiting = outer)
    (ends : Moment.Ends ⟨machine, .answer host, progress, after⟩ identity outcome) :
    Followed (⟨machine, .answer host, progress, after⟩ :: history) after := by
  have event : Moment.captureEvent ⟨machine, .answer host, progress, after⟩ = .answered := by
    simp [Moment.captureEvent, waiting]
  have awaited := followed.awaited
  have parted := followed.parted
  rw [waiting] at awaited
  -- The latest one that waits is the one that gets the answer.
  generalize open_eq : openCaptures history = openings at awaited parted
  cases awaited with
  | other other others => cases other
  | capture opens others =>
      rename_i opening openings
      have concludes : opening.Concludes ⟨machine, .answer host, progress, after⟩ identity tags := {
        samples := opens.samples
        move_eq := opens.move_eq
        same_call := .inr ⟨opens.unchanged, host, rfl, waiting⟩
        returned := returned
        outcome := ⟨outcome, ends, fun other own => own.unique ends⟩ }
      refine ⟨?_, ?_, ?_⟩
      · simp only [openCaptures, event, open_eq, List.tail_cons, waiting_eq]
        exact others
      · simp only [openCaptures, endedAllocations, event, open_eq, List.tail_cons, List.head?_cons,
          Option.toList_some, List.map_cons, List.map_nil, List.singleton_append]
        rw [List.filter_cons_of_neg (by simp [Moment.samples])]
        exact List.perm_middle.symm.trans parted
      · simp only [endedAllocations, event, open_eq, List.head?_cons, Option.toList_some,
          List.map_cons, List.map_nil, List.singleton_append]
        exact List.forall_mem_cons.mpr
          ⟨⟨List.mem_cons_self .., identity, tags, concludes⟩, followed.ended_cons⟩

theorem aside (followed : Followed history machine)
    (event : Moment.captureEvent ⟨machine, move, progress, after⟩ = .none)
    (unsampled : Moment.samples ⟨machine, move, progress, after⟩ = false)
    (awaited : ∀ openings, Awaited openings machine.waiting → Awaited openings after.waiting) :
    Followed (⟨machine, move, progress, after⟩ :: history) after where
  awaited := by
    simp only [openCaptures, event]
    exact awaited _ followed.awaited
  parted := by
    simp only [openCaptures, endedAllocations, event]
    rw [List.filter_cons_of_neg (by rw [unsampled]; exact Bool.false_ne_true)]
    exact followed.parted
  ended := by
    simp only [endedAllocations, event]
    exact followed.ended_cons

theorem step (followed : Followed history machine)
    (captured : machine.CaptureStep move progress after) :
    Followed (⟨machine, move, progress, after⟩ :: history) after := by
  cases captured with
  | opens event opens => exact followed.opens event opens
  | refuses event sampled move_eq ends returned waiting_eq =>
      rename_i identity tags
      have concludes : Moment.Concludes ⟨machine, move, progress, after⟩
          ⟨machine, move, progress, after⟩ identity tags := {
        samples := sampled
        move_eq := move_eq
        same_call := .inl rfl
        returned := returned
        outcome := ⟨.dropped, ends, fun outcome other => other.unique ends⟩ }
      exact followed.refuses event concludes waiting_eq
  | answers move_eq before_eq returned waiting_eq ends =>
      subst move_eq
      exact followed.answers before_eq returned waiting_eq ends
  | aside event unsampled awaited shrinks => exact followed.aside event unsampled awaited

end Followed

theorem followed_of_run (run : Run settings history machine) : Followed history machine := by
  -- What waits is carried along: without it an answer could not be told to be the opening's own.
  induction run with
  | created created => exact ⟨.nil, .nil, List.forall_mem_nil _⟩
  | moved run stepped ih => exact ih.step (run.sound.captureStep stepped)

/-! ## Exactly one more drop -/

/-- As long as fewer allocations were dropped than can be counted, the count has not wrapped. -/
theorem dropped_lt_of_run (run : Run settings history machine)
    (few : history.countP Moment.drops ≤ Store.maxDropped) :
    ∀ moment ∈ history, moment.drops = true →
      moment.before.collector.store.dropped < Store.maxDropped := by
  induction run with
  | created created => exact List.forall_mem_nil _
  | moved run stepped ih =>
      rename_i history before last move progress
      rw [Account.countP_cons_drops] at few
      have few_before : history.countP Moment.drops ≤ Store.maxDropped := by omega
      refine List.forall_mem_cons.mpr ⟨fun drops => ?_, ih few_before⟩
      have bounded := (account_of_run run few_before).bounded
      rw [drops, Bool.toNat_true] at few
      change before.collector.store.dropped < Store.maxDropped
      omega

theorem Moment.Concludes.drops {opening ending : Moment} {tags : List (String × String)}
    {middle : Store} (concludes : opening.Concludes ending identity tags)
    (refuses : ending.before.collector.Refuses identity middle ending.after.collector) :
    ending.drops = true := by
  have allocated : ending.allocated? = some identity := by
    unfold Moment.allocated?
    rw [concludes.returned]
    rcases concludes.same_call with rfl | ⟨-, host, move_eq, waiting⟩
    · obtain ⟨draw, move_eq⟩ := concludes.move_eq
      have samples := concludes.samples
      simp only [Moment.samples, move_eq, Bool.and_eq_true] at samples
      simp [move_eq, samples]
    · simp [refuses.running, move_eq, waiting]
  have gone : ending.after.collector.store.contains identity = false := by
    simp [Store.contains, Store.handle?, refuses.live_eq, refuses.vacates.live_eq, Store.unlist]
  simp [Moment.drops, allocated, gone]

/-! ## The bound and the three ends -/

theorem liveCount_le_of_run (run : Run settings history machine) :
    ∀ moment ∈ history,
      moment.before.collector.store.liveCount < moment.after.collector.store.liveCount →
        moment.after.collector.store.liveCount ≤
            moment.before.collector.settings.settings.maxSamples ∧
          moment.after.collector.settings.settings.maxSamples =
            moment.before.collector.settings.settings.maxSamples := by
  induction run with
  | created created => exact List.forall_mem_nil _
  | moved run stepped ih =>
      refine List.forall_mem_cons.mpr ⟨fun raised => ?_, ih⟩
      have within := (run.sound.captureStep stepped).within
      have before := inForce_of_run run
      have after := within.inForce before
      obtain ⟨bounded, same⟩ := within.bounded raised
      exact ⟨bounded.trans before.le, after.symm.trans (same.trans before)⟩

/--
Whatever happens while call stacks are captured, nothing becomes live beyond the bound that is set.
The sampled allocations of a run are those that have ended and those that wait.  Each that has
ended did so in one of the three ways: its identity is live with a fresh sample, its drop is
counted, or it has done nothing because the collector was stopped.
-/
theorem captures_of_run (run : Run settings history machine) :
    (∀ moment ∈ history,
      moment.before.collector.store.liveCount < moment.after.collector.store.liveCount →
        moment.after.collector.store.liveCount ≤
            moment.before.collector.settings.settings.maxSamples ∧
          moment.after.collector.settings.settings.maxSamples =
            moment.before.collector.settings.settings.maxSamples) ∧
    Awaited (openCaptures history) machine.waiting ∧
    ((endedAllocations history).map Prod.fst ++ openCaptures history).Perm
      (history.filter Moment.samples) ∧
    ∀ pair ∈ endedAllocations history, pair.2 ∈ history ∧
      ∃ identity tags, pair.1.Concludes pair.2 identity tags ∧
        (history.countP Moment.drops ≤ Store.maxDropped → pair.2.Ends identity .dropped →
          pair.2.after.collector.store.dropped = pair.2.before.collector.store.dropped + 1) := by
  have followed := followed_of_run run
  refine ⟨liveCount_le_of_run run, followed.awaited, followed.parted, fun pair listed => ?_⟩
  obtain ⟨member, identity, tags, concludes⟩ := followed.ended pair listed
  refine ⟨member, identity, tags, concludes, ?_⟩
  rintro few ⟨middle, refuses⟩
  have small := dropped_lt_of_run run few _ member (concludes.drops refuses)
  exact refuses.counted.trans (Nat.mod_eq_of_lt (Nat.succ_lt_succ small))

/--
With room for one sample a second object is allocated and recorded while the call stack of the first
one is captured, so the first one is dropped.  The collector is stopped while the call stack of a
third one, which has the identity of the second one, is captured.
-/
def allocatedWhileCaptured : List Move :=
  let answer := Move.answer (.uniform [⟨"work", "work.rb", 7⟩])
  [.call (.start 0), answer, .call (.allocate ⟨1⟩ [] 0), .call (.allocate ⟨2⟩ [] 0), answer, answer,
    .call (.allocate ⟨2⟩ [] 0), .call .stop, answer, answer]

theorem captures_of_allocatedWhileCaptured :
    ∃ history machine,
      replay { sampleRate := 1, maxSamples := 1 } allocatedWhileCaptured =
        some (history, machine) ∧
      (endedAllocations history).map
          (fun pair => (pair.2.before.collector.running, pair.2.drops)) =
        [(false, false), (true, true), (true, false)] ∧
      openCaptures history = [] ∧ machine.collector.store.liveCount = 1 ∧
      machine.collector.store.dropped = 1 ∧
      ∀ pair ∈ endedAllocations history, pair.2 ∈ history ∧
        ∃ identity tags, pair.1.Concludes pair.2 identity tags := by
  obtain ⟨history, machine, replayed, checked⟩ := exists_of_replay
    { sampleRate := 1, maxSamples := 1 } allocatedWhileCaptured
    (fun run => decide ((endedAllocations run.1).map
          (fun pair => (pair.2.before.collector.running, pair.2.drops)) =
        [(false, false), (true, true), (true, false)]) &&
      (openCaptures run.1).isEmpty && decide (run.2.collector.store.liveCount = 1) &&
      decide (run.2.collector.store.dropped = 1))
    (by decide +kernel)
  simp only [Bool.and_eq_true, decide_eq_true_eq, List.isEmpty_iff] at checked
  obtain ⟨⟨⟨ended_eq, none_open⟩, one_live⟩, one_dropped⟩ := checked
  refine ⟨history, machine, replayed, ended_eq, none_open, one_live, one_dropped, ?_⟩
  intro pair listed
  obtain ⟨-, -, -, ended⟩ := captures_of_run (Run.of_replay replayed)
  obtain ⟨member, identity, tags, concludes, -⟩ := ended pair listed
  exact ⟨member, identity, tags, concludes⟩

end HeapSampler
