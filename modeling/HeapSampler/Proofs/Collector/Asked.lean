import Mathlib
import HeapSampler.Proofs.Collector.Captures
import HeapSampler.Proofs.Collector.Partition

/-!
# What the host is asked

An identity that is not live any more may name another object or nothing, so the host must not be
asked about it.  On every run the host is asked for a size only while the identity is live and
names the sample that is measured.  It is asked for places only while the sample is not released,
with the backtrace that was captured for it, and not again once it has had some.  Every sample of a
snapshot has its turn to be symbolized, in order, and if it is not released then and has no places
yet the host is asked about it.

A handle may come back after 2^32 samples of its cell, so a history speaks of the sample of a handle
from the moment on at which it was recorded.
-/

namespace HeapSampler

/-! ## Notes on one sample -/

def noteOn? {α : Type} (handle : Handle) (note : Option (Handle × α)) : Option α :=
  (note.filter fun entry => entry.1 = handle).map Prod.snd

@[simp]
theorem noteOn?_self {α : Type} (handle : Handle) (content : α) :
    noteOn? handle (some (handle, content)) = some content := by
  simp [noteOn?]

theorem noteOn?_other {α : Type} {handle other : Handle} (apart : other ≠ handle) (content : α) :
    noteOn? other (some (handle, content)) = none := by
  simp [noteOn?, Ne.symm apart]

namespace Suspended

def queued : Suspended → List Handle
  | symbolizing _ _ _ rest => rest
  | measuring .. | capturing _ _ | subscribing | unsubscribing => []

/-- The sample whose backtrace the host has been asked about, and whether it had places for it. -/
def tried? : (suspended : Suspended) → suspended.request.Answer → Option (Handle × Bool)
  | symbolizing _ handle _ _, answer => some (handle, Except.isOk answer)
  | measuring .., _ | capturing _ _, _ | subscribing, _ | unsubscribing, _ => none

theorem queued_eq_nil {suspended : Suspended} (outside : suspended.cycle? = none) :
    suspended.queued = [] := by
  cases suspended with
  | symbolizing => cases outside
  | measuring => rfl
  | capturing => rfl
  | subscribing => rfl
  | unsubscribing => rfl

theorem tried?_eq_none (suspended : Suspended) (answer : suspended.request.Answer)
    (outside : suspended.cycle? = none) : suspended.tried? answer = none := by
  cases suspended with
  | symbolizing => cases outside
  | measuring => rfl
  | capturing => rfl
  | subscribing => rfl
  | unsubscribing => rfl

end Suspended

namespace Progress

def queued : Progress → List Handle
  | waiting suspended => suspended.queued
  | replied _ => []

theorem queued_eq_nil {progress : Progress} (outside : progress.Outside) :
    progress.queued = [] := by
  cases progress with
  | waiting suspended => exact Suspended.queued_eq_nil outside
  | replied reply => rfl

theorem flatMap_queued_onto (progress : Progress) (outer : List Suspended) :
    (progress.onto outer).flatMap Suspended.queued =
      progress.queued ++ outer.flatMap Suspended.queued := by
  cases progress with
  | waiting suspended => rfl
  | replied reply => rfl

end Progress

/-- Calls that belong to no flush have nothing queued. -/
theorem flatMap_queued_eq_nil {outer : List Suspended}
    (outside : outer.filterMap Suspended.cycle? = []) : outer.flatMap Suspended.queued = [] :=
  List.flatMap_eq_nil_iff.mpr fun suspended listed =>
    Suspended.queued_eq_nil (List.filterMap_eq_nil_iff.mp outside suspended listed)

namespace Moment

/-- The sample that an allocation has become, and the call stack that was captured for it. -/
def recorded? (moment : Moment) : Option (Handle × Backtrace) :=
  match moment.move, moment.before.waiting with
  | .answer host, .capturing identity _ :: _ =>
      if moment.before.collector.running then
        (moment.after.collector.store.handle? identity).map (·, host.stack)
      else none
  | _, _ => none

/--
The samples whose turn to be symbolized is still to come for the flush that begins or goes on.
-/
def queued (moment : Moment) : List Handle :=
  match moment.move, moment.before.waiting with
  | .call _, _ =>
      if moment.beginsFlush then moment.before.collector.store.live.map Prod.snd else []
  | .answer _, suspended :: _ => suspended.queued
  | .answer _, [] | .rehash _, _ => []

def turns (moment : Moment) : List Handle :=
  moment.queued.filter fun handle => handle ∉ moment.progress.queued

theorem turns_eq {moment : Moment} {passed : List Handle} (nodup : moment.queued.Nodup)
    (split : moment.queued = passed ++ moment.progress.queued) : moment.turns = passed := by
  rw [split] at nodup
  have apart := List.disjoint_of_nodup_append nodup
  rw [turns, split, List.filter_append, List.filter_eq_self.mpr, List.filter_eq_nil_iff.mpr,
    List.append_nil]
  · intro handle listed
    simpa using listed
  · intro handle listed
    simpa using fun remains => apart listed remains

end Moment

def captured? (history : List Moment) (handle : Handle) : Option Backtrace :=
  history.findSome? fun moment => noteOn? handle moment.recorded?

/-- Whether the host had places for the sample of a handle, for each time that it was asked since
the sample was recorded, the latest one in front. -/
def tries (history : List Moment) (handle : Handle) : List Bool :=
  (history.takeWhile fun moment => (noteOn? handle moment.recorded?).isNone).filterMap fun moment =>
    noteOn? handle (moment.answered? Suspended.tried?)

/-- The samples whose turn to be symbolized has come since the latest flush began, in order. -/
def latestTurns : List Moment → List Handle
  | [] => []
  | moment :: earlier =>
      if moment.beginsFlush then moment.turns else latestTurns earlier ++ moment.turns

variable {settings : Settings} {history : List Moment} {machine after : Machine} {move : Move}
  {progress : Progress} {handle : Handle} {moment : Moment}

theorem captured?_of_unrecorded (unrecorded : noteOn? handle moment.recorded? = none) :
    captured? (moment :: history) handle = captured? history handle := by
  rw [captured?, List.findSome?_cons, unrecorded]
  rfl

theorem captured?_of_recorded {stack : Backtrace}
    (recorded : noteOn? handle moment.recorded? = some stack) :
    captured? (moment :: history) handle = some stack := by
  rw [captured?, List.findSome?_cons, recorded]

theorem tries_of_unrecorded (unrecorded : noteOn? handle moment.recorded? = none) :
    tries (moment :: history) handle =
      (noteOn? handle (moment.answered? Suspended.tried?)).toList ++ tries history handle := by
  rw [tries, List.takeWhile_cons_of_pos (by rw [unrecorded]; rfl)]
  cases tried : noteOn? handle (moment.answered? Suspended.tried?) with
  | none => exact List.filterMap_cons_none tried
  | some placed => exact List.filterMap_cons_some tried

theorem tries_of_recorded {stack : Backtrace}
    (recorded : noteOn? handle moment.recorded? = some stack) :
    tries (moment :: history) handle = [] := by
  rw [tries, List.takeWhile_cons_of_neg (by simp [recorded])]
  rfl

/-! ## Samples between two requests -/

/-- What happens to a sample while nothing is found out about it. -/
structure Sample.Follows (old new : Sample) : Prop where
  symbolized_eq : new.isSymbolized = old.isSymbolized
  size_eq : new.size = old.size
  backtrace_eq : ∀ backtrace, new.backtrace = some backtrace → old.backtrace = some backtrace

theorem Sample.Ages.follows {old new : Sample} (ages : old.Ages new) : old.Follows new :=
  ⟨ages.symbolized_eq, ages.size_eq, fun _ kept => ages.backtrace_eq.symm.trans kept⟩

namespace Collector

def Follows (before after : Collector) (handle : Handle) : Prop :=
  ∀ sample, after.store.sample? handle = some sample →
    ∃ old, before.store.sample? handle = some old ∧ old.Follows sample

/-- The sample of a handle is one that was there before, and it has only aged. -/
def Ages (before after : Collector) (handle : Handle) : Prop :=
  ∀ sample, after.store.sample? handle = some sample →
    ∃ old, before.store.sample? handle = some old ∧ old.Ages sample

structure Known (collector : Collector) (stack? : Handle → Option Backtrace)
    (tries : Handle → List Bool) : Prop where
  stack_eq : ∀ {handle : Handle} {sample : Sample} {backtrace : Backtrace},
    collector.store.sample? handle = some sample → sample.backtrace = some backtrace →
      stack? handle = some backtrace
  symbolized_iff : ∀ {handle : Handle} {sample : Sample},
    collector.store.sample? handle = some sample →
      (sample.isSymbolized = true ↔ true ∈ tries handle)

variable {collector next after : Collector} {stack? : Handle → Option Backtrace}
  {tries tries' : Handle → List Bool} {cycle : Cycle} {included rest queued held : List Handle}
  {progress : Progress} {handle : Handle} {old new : Sample}
  {sized : Option (Handle × UInt64)}

theorem Ages.refl (collector : Collector) (handle : Handle) : collector.Ages collector handle :=
  fun sample found => ⟨sample, found, .refl sample⟩

theorem Follows.of_ages (ages : collector.Ages after handle) : collector.Follows after handle := by
  intro sample found
  obtain ⟨old, before, older⟩ := ages sample found
  exact ⟨old, before, older.follows⟩

theorem Follows.refl (collector : Collector) (handle : Handle) :
    collector.Follows collector handle :=
  .of_ages (.refl collector handle)

namespace Known

theorem follows (known : collector.Known stack? tries)
    (follows : ∀ handle, collector.Follows after handle) : after.Known stack? tries where
  stack_eq found present := by
    obtain ⟨old, before, same⟩ := follows _ _ found
    exact known.stack_eq before (same.backtrace_eq _ present)
  symbolized_iff found := by
    obtain ⟨old, before, same⟩ := follows _ _ found
    rw [same.symbolized_eq]
    exact known.symbolized_iff before

/-- A sample without places is one that the host had none for, if it was asked. -/
theorem untried (known : collector.Known stack? tries)
    (found : collector.store.sample? handle = some old) (unsymbolized : old.isSymbolized = false) :
    true ∉ tries handle := by
  rw [← known.symbolized_iff found, unsymbolized]
  exact Bool.false_ne_true

theorem change (known : collector.Known stack? tries)
    (reads : ∀ other, after.store.sample? other =
      if other = handle then some new else collector.store.sample? other)
    (stack_eq : ∀ backtrace, new.backtrace = some backtrace → stack? handle = some backtrace)
    (others : ∀ other, other ≠ handle → tries' other = tries other)
    (symbolized_iff : new.isSymbolized = true ↔ true ∈ tries' handle) :
    after.Known stack? tries' where
  stack_eq {other sample backtrace} found present := by
    rcases Arena.eq_or_ne_of_get? reads found with ⟨rfl, rfl⟩ | ⟨-, before⟩
    · exact stack_eq backtrace present
    · exact known.stack_eq before present
  symbolized_iff {other sample} found := by
    rcases Arena.eq_or_ne_of_get? reads found with ⟨rfl, rfl⟩ | ⟨apart, before⟩
    · exact symbolized_iff
    · rw [others other apart]
      exact known.symbolized_iff before

end Known

/-- A sample that can be measured is live under the identity that the host is asked about. -/
theorem handle?_of_measurable? {identity : Identity}
    (balanced : collector.inventory.Balanced [] held [])
    (found : collector.measurable? handle = some identity) :
    collector.store.handle? identity = some handle := by
  unfold measurable? at found
  split at found
  · rename_i sample present
    split at found
    · have unreleased : ¬sample.isReleased = true := by
        intro released
        rw [balanced.nameless present released] at found
        cases found
      rw [balanced.released_iff present, not_not, List.append_nil] at unreleased
      obtain ⟨⟨own, place⟩, listed, rfl⟩ := List.mem_map.mp unreleased
      cases found.symm.trans (balanced.identity_eq listed present)
      exact balanced.handle?_eq_some_iff.mpr listed
    · cases found
  · cases found

/-! ## Stretches of a flush -/

theorem MeasuresNext.follows (next : MeasuresNext collector cycle included rest after progress)
    (balanced : collector.inventory.Balanced [] cycle.snapshot []) (handle : Handle) :
    collector.Follows after handle := by
  cases next with
  | waits => exact .refl collector handle
  | finishes none_left finished =>
      exact .of_ages fun _ found => (Collector.finishes finished).survives balanced found

/--
What a stretch of a flush asks the host, given the samples that are queued for symbolization, and
which sample has just been given a size.
-/
structure Inquires (before : Collector) (stack? : Handle → Option Backtrace)
    (tries : Handle → List Bool) (queued : List Handle) (sized : Option (Handle × UInt64))
    (after : Collector) (progress : Progress) : Prop where
  known : after.Known stack? tries
  measures : ∀ {cycle : Cycle} {included : List Handle} {handle : Handle} {identity : Identity}
    {rest : List Handle}, progress = .waiting (.measuring cycle included handle identity rest) →
      after.store.handle? identity = some handle
  symbolizes : ∀ {cycle : Cycle} {handle : Handle} {backtrace : Backtrace} {rest : List Handle},
    progress = .waiting (.symbolizing cycle handle backtrace rest) →
      (∃ sample, after.store.sample? handle = some sample ∧ sample.isReleased = false) ∧
        stack? handle = some backtrace ∧ true ∉ tries handle
  turns : ∃ passed, queued = passed ++ progress.queued ∧
    ∀ handle ∈ passed, before.hasReleased handle = false → true ∉ tries handle →
      ∃ cycle backtrace rest, progress = .waiting (.symbolizing cycle handle backtrace rest) ∧
        stack? handle = some backtrace
  sizes : ∀ {handle : Handle} {sample : Sample} {size : UInt64},
    after.store.sample? handle = some sample → sample.size = some size →
      ∃ old, before.store.sample? handle = some old ∧
        (old.size = some size ∨ old.isReleased = false ∧ sized = some (handle, size))

/-- No sample gets a size while the next one to ask about is looked for. -/
theorem sizes_of_follows (follows : ∀ handle, collector.Follows after handle) {sample : Sample}
    {size : UInt64} (found : after.store.sample? handle = some sample)
    (measured : sample.size = some size) :
    ∃ old, collector.store.sample? handle = some old ∧
      (old.size = some size ∨ old.isReleased = false ∧ sized = some (handle, size)) := by
  obtain ⟨old, before, same⟩ := follows handle sample found
  exact ⟨old, before, .inl (same.size_eq.symm.trans measured)⟩

theorem MeasuresNext.inquires (next : MeasuresNext collector cycle included rest after progress)
    (balanced : collector.inventory.Balanced [] cycle.snapshot [])
    (known : collector.Known stack? tries) :
    collector.Inquires stack? tries [] sized after progress := by
  have follows := next.follows balanced
  cases next with
  | waits passed none_before found =>
      exact {
        known
        measures := fun same => by
          cases same
          exact handle?_of_measurable? balanced found
        symbolizes := fun same => nomatch same
        turns := ⟨[], rfl, List.forall_mem_nil _⟩
        sizes := sizes_of_follows follows }
  | finishes none_left finished =>
      obtain ⟨reply, rfl⟩ := (Collector.finishes finished).exists_reply
      exact {
        known := known.follows follows
        measures := fun same => nomatch same
        symbolizes := fun same => nomatch same
        turns := ⟨[], rfl, List.forall_mem_nil _⟩
        sizes := sizes_of_follows follows }

/-- A sample that is passed over is released or has its places. -/
theorem Known.settled (known : collector.Known stack? tries) (backed : collector.Backed [])
    (settled : collector.Settled handle) (unreleased : collector.hasReleased handle = false) :
    true ∈ tries handle := by
  obtain ⟨sample, found, released | symbolized⟩ := backed.passed settled
  · rw [hasReleased_eq found, released] at unreleased
    cases unreleased
  · exact (known.symbolized_iff found).mp symbolized

theorem SymbolizesNext.inquires (next : SymbolizesNext collector cycle rest after progress)
    (balanced : collector.inventory.Balanced [] cycle.snapshot []) (backed : collector.Backed [])
    (known : collector.Known stack? tries) :
    collector.Inquires stack? tries rest sized after progress := by
  cases next with
  | waits passed settled found present unreleased unsymbolized modified =>
      rename_i later handle backtrace sample store
      obtain ⟨arena, modified', reads, -⟩ :=
        balanced.touch Sample.withoutBacktrace found rfl rfl (.inr rfl) rfl rfl
      cases modified.symm.trans modified'
      have stack_eq := known.stack_eq found present
      have follows (other : Handle) : collector.Follows
          (collector.withStore { collector.store with arena }) other := by
        intro own reached
        rcases Arena.eq_or_ne_of_get? reads reached with ⟨rfl, rfl⟩ | ⟨-, before⟩
        · exact ⟨sample, found, rfl, rfl, nofun⟩
        · exact ⟨own, before, (Sample.Ages.refl own).follows⟩
      exact {
        known := known.follows follows
        measures := fun same => nomatch same
        symbolizes := fun same => by
          cases same
          exact ⟨⟨_, (reads _).trans (if_pos rfl), unreleased⟩, stack_eq,
            known.untried found unsymbolized⟩
        turns := by
          refine ⟨passed ++ [handle], (List.append_cons passed handle later), ?_⟩
          intro other listed live unplaced
          rcases List.mem_append.mp listed with before | last
          · exact absurd (known.settled backed (settled other before) live) unplaced
          · cases List.mem_singleton.mp last
            exact ⟨cycle, backtrace, later, rfl, stack_eq⟩
        sizes := sizes_of_follows follows }
  | measures settled next =>
      have inquires : collector.Inquires stack? tries [] sized after progress :=
        next.inquires balanced known
      obtain ⟨passed, nil_eq, -⟩ := inquires.turns
      obtain ⟨-, queued_eq⟩ := List.append_eq_nil_iff.mp nil_eq.symm
      refine { inquires with turns := ⟨rest, by rw [queued_eq, List.append_nil], ?_⟩ }
      intro other listed live unplaced
      exact absurd (known.settled backed (settled other listed) live) unplaced

theorem Inquires.of_change (inquires : next.Inquires stack? tries queued none after progress)
    (found : collector.store.sample? handle = some old)
    (reads : ∀ other, next.store.sample? other =
      if other = handle then some new else collector.store.sample? other)
    (released_eq : new.isReleased = old.isReleased)
    (sizes : ∀ size, new.size = some size →
      old.size = some size ∨ old.isReleased = false ∧ sized = some (handle, size)) :
    collector.Inquires stack? tries queued sized after progress :=
  { inquires with
    turns := by
      obtain ⟨passed, split, asks⟩ := inquires.turns
      refine ⟨passed, split, fun other listed live unplaced => asks other listed ?_ unplaced⟩
      rw [hasReleased_of_reads found reads released_eq]
      exact live
    sizes := fun reached measured => by
      obtain ⟨own, before, own_size | ⟨-, nothing⟩⟩ := inquires.sizes reached measured
      · rcases Arena.eq_or_ne_of_get? reads before with ⟨rfl, rfl⟩ | ⟨-, before'⟩
        · exact ⟨old, found, sizes _ own_size⟩
        · exact ⟨own, before', .inl own_size⟩
      · cases nothing }

theorem Inquires.of_same (inquires : next.Inquires stack? tries queued sized after progress)
    (reads : ∀ other, next.store.sample? other = collector.store.sample? other) :
    collector.Inquires stack? tries queued sized after progress :=
  { inquires with
    turns := by
      obtain ⟨passed, split, asks⟩ := inquires.turns
      refine ⟨passed, split, fun other listed live unplaced => asks other listed ?_ unplaced⟩
      rw [hasReleased, reads]
      exact live
    sizes := fun reached measured => by
      obtain ⟨own, before, outcome⟩ := inquires.sizes reached measured
      exact ⟨own, (reads _).symm.trans before, outcome⟩ }

theorem inquires_of_flush {clock : Clock} (idle : collector.flushing = false)
    (balanced : collector.inventory.Balanced [] [] []) (backed : collector.Backed [])
    (known : collector.Known stack? tries) (went : collector.flush clock = .ok (after, progress)) :
    collector.Inquires stack? tries (collector.store.live.map Prod.snd) none after progress := by
  obtain ⟨arena, begun, reads, balanced'⟩ := flush_of_idle idle balanced clock
  refine ((symbolizesNext (begun.symm.trans went)).inquires balanced' ?_ ?_).of_same reads
  · intro handle sample found
    exact backed handle sample ((reads handle).symm.trans found)
  · refine known.follows fun handle => .of_ages fun sample found => ?_
    exact ⟨sample, (reads handle).symm.trans found, .refl sample⟩

theorem inquires_of_resumeSymbolize {backtrace : Backtrace}
    {answer : Except SymbolizationError (List NamedPlace)}
    (balanced : collector.inventory.Balanced [] cycle.snapshot [])
    (sound : Suspended.Sound collector.inventory (.symbolizing cycle handle backtrace rest))
    (backed : collector.Backed [handle]) (known : collector.Known stack? tries)
    (stack_eq : stack? handle = some backtrace)
    (went : collector.resumeSymbolize cycle handle backtrace rest answer = .ok (after, progress)) :
    collector.Inquires stack?
      (fun other => (noteOn? other
        ((Suspended.symbolizing cycle handle backtrace rest).tried? answer)).toList ++ tries other)
      rest none after progress := by
  obtain ⟨-, -, old, found, unsymbolized⟩ := sound
  have unplaced := known.untried found unsymbolized
  have not_out (other : Handle) (out : other ∈ [handle]) (apart : other ≠ handle) :
      other ∈ ([] : List Handle) := absurd (List.mem_singleton.mp out) apart
  have others (other : Handle) (apart : other ≠ handle) :
      (noteOn? other (some (handle, Except.isOk answer))).toList ++ tries other = tries other := by
    rw [noteOn?_other apart]
    rfl
  cases answer with
  | error cause =>
      obtain ⟨arena, resumed, reads, balanced'⟩ :=
        resumeSymbolize_of_error balanced found backtrace rest cause
      have backed' : (collector.withStore { collector.store with arena }).Backed [] :=
        backed.change reads (fun _ missing => nomatch missing) not_out
      refine ((symbolizesNext (resumed.symm.trans went)).inquires balanced' backed'
        (known.change reads ?stack others ?placed)).of_change found reads rfl fun _ => .inl
      case stack =>
        intro own same
        cases same
        exact stack_eq
      case placed =>
        have plain : (old.withBacktrace backtrace).isSymbolized = false := unsymbolized
        simp [Except.isOk, Except.toBool, plain, unplaced]
  | ok places =>
      rcases resumeSymbolize_of_places balanced found unsymbolized backtrace rest places with
        ⟨cause, -, refused⟩ | ⟨tables, locations, arena, -, resumed, reads, balanced'⟩
      · cases refused.symm.trans went
      · refine ((symbolizesNext (resumed.symm.trans went)).inquires balanced'
          (backed.change reads (fun plain => nomatch plain) not_out)
          (known.change reads nofun others ?placed)).of_change found reads rfl fun _ => .inl
        case placed => simp [Except.isOk, Except.toBool, Sample.symbolized, Sample.isSymbolized]

theorem inquires_of_resumeMeasure {identity : Identity} {answer : Option UInt64}
    (balanced : collector.inventory.Balanced [] cycle.snapshot [])
    (known : collector.Known stack? tries)
    (went : collector.resumeMeasure cycle included handle rest answer = .ok (after, progress)) :
    collector.Inquires stack? tries []
      (collector.sized? (.measuring cycle included handle identity rest) answer) after
      progress := by
  rcases resumeMeasure_cases balanced handle included rest answer with
    resumed | ⟨sample, size, arena, rfl, found, unreleased, resumed, reads, balanced'⟩
  · exact (measuresNext (resumed.symm.trans went)).inquires balanced known
  · have sized_eq : collector.sized? (.measuring cycle included handle identity rest) (some size) =
        some (handle, size) := by
      simp [sized?, found, unreleased]
    have known' : (collector.withStore { collector.store with arena }).Known stack? tries := by
      refine known.change reads ?stack (fun _ _ => rfl) ?placed
      case stack => exact fun _ present => known.stack_eq found present
      case placed => exact show sample.isSymbolized = true ↔ _ from known.symbolized_iff found
    refine ((measuresNext (resumed.symm.trans went)).inquires balanced' known').of_change found
      reads rfl ?sizes
    case sizes =>
      intro own same
      cases same
      exact .inr ⟨unreleased, sized_eq⟩

/-- The size of a sample that is released is not wanted any more. -/
theorem resumeMeasure_of_released (released : collector.hasReleased handle = true)
    (answer : Option UInt64) :
    collector.resumeMeasure cycle included handle rest answer =
      collector.measureFrom cycle included rest := by
  obtain ⟨sample, found, gone⟩ := (Option.any_eq_true _ _).mp released
  cases answer with
  | none => simp only [resumeMeasure, found]
  | some size => simp only [resumeMeasure, found, gone, if_true]

theorem inquires_of_resume {suspended : Suspended} {answer : suspended.request.Answer}
    (inside : suspended.cycle? = some cycle)
    (balanced : collector.inventory.Balanced [] cycle.snapshot [])
    (sound : suspended.Sound collector.inventory) (backed : collector.Backed suspended.out?.toList)
    (known : collector.Known stack? tries)
    (stack_eq : ∀ cycle handle backtrace rest,
      suspended = .symbolizing cycle handle backtrace rest → stack? handle = some backtrace)
    (went : collector.resume suspended answer = .ok (after, progress)) :
    collector.Inquires stack?
      (fun other => (noteOn? other (suspended.tried? answer)).toList ++ tries other)
      suspended.queued (collector.sized? suspended answer) after progress := by
  cases suspended with
  | symbolizing own handle backtrace rest =>
      cases inside
      exact inquires_of_resumeSymbolize balanced sound backed known (stack_eq _ _ _ _ rfl) went
  | measuring own included handle identity rest =>
      cases inside
      exact inquires_of_resumeMeasure balanced known went
  | capturing => cases inside
  | subscribing => cases inside
  | unsubscribing => cases inside

/-! ## Calls outside the flush -/

theorem arena_of_halt {refusal : Reply}
    (went : (if collector.running then
        ({ collector with running := false }, Progress.waiting .unsubscribing)
      else (collector, .replied refusal)) = (after, progress)) :
    after.store.arena = collector.store.arena := by
  split at went
  · cases went
    rfl
  · cases went
    rfl

/-- A call that does not begin a flush only lets samples age. -/
theorem ages_of_call {call : Call} (balanced : collector.inventory.Balanced [] held [])
    (passing : ∀ clock, call = .flush clock → collector.flushing = true)
    (went : collector.call call = .ok (after, progress)) (handle : Handle) :
    collector.Ages after handle := by
  intro sample found
  have kept (same : after.store.arena = collector.store.arena) :
      ∃ old, collector.store.sample? handle = some old ∧ old.Ages sample := by
    refine ⟨sample, ?_, .refl sample⟩
    rw [Store.sample?, ← same]
    exact found
  cases call with
  | allocate identity tags draw =>
      simp only [Collector.call, allocate, Except.ok.injEq] at went
      split at went
      · cases went
        exact kept rfl
      · split at went
        · cases went
          exact kept rfl
        · cases went
          exact kept rfl
  | release identity =>
      obtain ⟨inventory, released, -, -, aged⟩ := balanced.recordRelease identity
      simp only [Collector.call, release, released, bind, Except.bind, pure, Except.pure,
        Except.map, Except.ok.injEq, Prod.mk.injEq] at went
      obtain ⟨rfl, -⟩ := went
      exact aged.survives found
  | relocate former latter =>
      obtain ⟨inventory, relocated, -, aged, -⟩ := balanced.recordRelocation former latter
      simp only [Collector.call, relocate, relocated, bind, Except.bind, pure, Except.pure,
        Except.map, Except.ok.injEq, Prod.mk.injEq] at went
      obtain ⟨rfl, -⟩ := went
      exact aged.survives found
  | start instant =>
      rcases start_cases balanced went with ⟨-, rfl, -⟩ | ⟨-, -, cleared, -, -, aged, rfl⟩
      · exact kept rfl
      · exact aged.survives found
  | stop => exact kept (arena_of_halt (Except.ok.inj went))
  | retire => exact kept (arena_of_halt (Except.ok.inj went))
  | configure settings =>
      simp only [Collector.call, configure, Except.ok.injEq, Prod.mk.injEq] at went
      obtain ⟨rfl, -⟩ := went
      refine kept ?_
      split
      · rfl
      · rfl
  | setGlobalTags tags =>
      simp only [Collector.call, setGlobalTags, Except.ok.injEq, Prod.mk.injEq] at went
      obtain ⟨rfl, -⟩ := went
      refine kept ?_
      split
      · rfl
      · rfl
  | flush clock =>
      simp only [Collector.call, flush, passing clock rfl, if_true, Except.ok.injEq,
        Prod.mk.injEq] at went
      obtain ⟨rfl, -⟩ := went
      exact kept rfl

end Collector

namespace Machine

theorem Sound.recorded_of_capture {identity : Identity} {tags : List (String × String)}
    {host : Host} {outer : List Suspended} (sound : machine.Sound) (sound_after : after.Sound)
    (waiting : machine.waiting = .capturing identity tags :: outer)
    (went : machine.collector.resumeCapture identity tags host.stack = .ok after.collector) :
    let now : Moment := ⟨machine, .answer host, progress, after⟩
    now.recorded? = none ∧ (∀ handle, machine.collector.Ages after.collector handle) ∨
      ∃ handle tags, now.recorded? = some (handle, host.stack) ∧
        after.collector.store.sample? handle = some (.new identity tags host.stack) ∧
        ∀ other, other ≠ handle → machine.collector.Ages after.collector other := by
  intro now
  cases running : machine.collector.running with
  | false =>
      have same := Except.ok.inj ((Collector.resumeCapture_of_stopped running).symm.trans went)
      exact .inl ⟨by simp [now, Moment.recorded?, waiting, running], same ▸ .refl _⟩
  | true =>
      have recorded_eq : now.recorded? =
          (after.collector.store.handle? identity).map (·, host.stack) := by
        simp [now, Moment.recorded?, waiting, running]
      rcases Collector.ends_of_resumeCapture sound.balanced running went with
        ⟨middle, handle, records⟩ | ⟨middle, refuses⟩
      · obtain ⟨ids, found⟩ := records.found
        refine .inr ⟨handle, ids, ?_, found, fun other apart sample reached => ?_⟩
        · have listed : after.collector.store.handle? identity = some handle := by
            refine sound_after.balanced.handle?_eq_some_iff.mpr ?_
            change (identity, handle) ∈ after.collector.store.live
            rw [records.live_eq]
            exact List.mem_append_right _ (List.mem_singleton_self _)
          rw [recorded_eq, listed]
          rfl
        · rw [records.others other apart] at reached
          exact records.vacates.survives other sample reached
      · refine .inl ⟨?_, fun other sample reached => ?_⟩
        · have unlisted : after.collector.store.handle? identity = none := by
            simp [Store.handle?, refuses.live_eq, refuses.vacates.live_eq, Store.unlist]
          rw [recorded_eq, unlisted]
          rfl
        · rw [refuses.others other] at reached
          exact refuses.vacates.survives other sample reached

/-- A move outside the flush records one sample at most; the other ones only age. -/
theorem Sound.recorded_cases (sound : machine.Sound) (foreign : machine.Foreign move)
    (stepped : machine.step? move = some (progress, after)) :
    let now : Moment := ⟨machine, move, progress, after⟩
    now.recorded? = none ∧ (∀ handle, machine.collector.Ages after.collector handle) ∨
      ∃ handle identity tags stack, now.recorded? = some (handle, stack) ∧
        after.collector.store.sample? handle = some (.new identity tags stack) ∧
        ∀ other, other ≠ handle → machine.collector.Ages after.collector other := by
  intro now
  cases foreign with
  | call passing =>
      obtain ⟨went, -⟩ := step?_call stepped
      exact .inl ⟨rfl, Collector.ages_of_call sound.balanced passing went⟩
  | @answer host suspended outer waiting outside =>
      obtain ⟨own, own_outer, own_waiting, went, -⟩ := step?_answer stepped
      cases waiting.symm.trans own_waiting
      rcases Collector.resume_outside outside went with
        ⟨identity, tags, rfl, resumed, -⟩ | ⟨idle, same, -⟩
      · rcases sound.recorded_of_capture (sound.step stepped) waiting resumed with
          unrecorded | ⟨handle, ids, recorded, found, others⟩
        · exact .inl unrecorded
        · exact .inr ⟨handle, identity, ids, host.stack, recorded, found, others⟩
      · refine .inl ⟨?_, same ▸ .refl _⟩
        rcases idle with rfl | rfl
        · simp [now, Moment.recorded?, waiting]
        · simp [now, Moment.recorded?, waiting]
  | rehash =>
      obtain ⟨-, -, rfl⟩ := step?_rehash stepped
      exact .inl ⟨rfl, fun handle => .refl machine.collector handle⟩

end Machine

/-! ## Runs -/

/-- What has been noted about the samples, and how far the flush under way has got. -/
structure Consulted (history : List Moment) (machine : Machine) : Prop where
  known : machine.collector.Known (captured? history) (tries history)
  /-- The backtrace that is out with a request is the one that was captured. -/
  stack_eq : ∀ {cycle : Cycle} {handle : Handle} {backtrace : Backtrace} {rest : List Handle},
    .symbolizing cycle handle backtrace rest ∈ machine.waiting →
      captured? history handle = some backtrace
  turns_eq : latestTurns history ++ machine.waiting.flatMap Suspended.queued =
    latestSnapshot history

namespace Consulted

theorem captured?_eq (unrecorded : moment.recorded? = none) :
    captured? (moment :: history) = captured? history :=
  funext fun _ => captured?_of_unrecorded (by rw [unrecorded]; rfl)

theorem tries_eq (unrecorded : moment.recorded? = none) :
    tries (moment :: history) = fun handle =>
      (noteOn? handle (moment.answered? Suspended.tried?)).toList ++ tries history handle :=
  funext fun _ => tries_of_unrecorded (by rw [unrecorded]; rfl)

/-- What is noted at a moment that has to do with no flush. -/
theorem known_of_foreign (consulted : Consulted history machine) (sound : machine.Sound)
    (foreign : machine.Foreign move) (stepped : machine.step? move = some (progress, after)) :
    let now : Moment := ⟨machine, move, progress, after⟩
    after.collector.Known (captured? (now :: history)) (tries (now :: history)) := by
  intro now
  have untried : now.answered? Suspended.tried? = none :=
    Moment.answered?_eq_none Suspended.tried?_eq_none foreign
  rcases sound.recorded_cases foreign stepped with
    ⟨unrecorded, ages⟩ | ⟨handle, identity, tags, stack, recorded, fresh, ages⟩
  · rw [captured?_eq unrecorded, tries_eq unrecorded, untried]
    exact consulted.known.follows fun handle => .of_ages (ages handle)
  · have own : noteOn? handle now.recorded? = some stack := by
      rw [recorded, noteOn?_self]
    have others {other : Handle} (apart : other ≠ handle) : noteOn? other now.recorded? = none := by
      rw [recorded, noteOn?_other apart]
    constructor
    case stack_eq =>
      intro other sample backtrace found present
      by_cases same : other = handle
      · cases same
        cases fresh.symm.trans found
        cases present
        exact captured?_of_recorded own
      · obtain ⟨old, before, kept⟩ := ages other same sample found
        rw [captured?_of_unrecorded (others same)]
        exact consulted.known.stack_eq before (kept.follows.backtrace_eq _ present)
    case symbolized_iff =>
      intro other sample found
      by_cases same : other = handle
      · cases same
        cases fresh.symm.trans found
        rw [tries_of_recorded own]
        exact iff_of_false Bool.false_ne_true List.not_mem_nil
      · obtain ⟨old, before, kept⟩ := ages other same sample found
        rw [tries_of_unrecorded (others same), untried, kept.symbolized_eq]
        exact consulted.known.symbolized_iff before

/-- Outside the flush the host is asked for call stacks and events only, and no size is stored. -/
theorem inquires_of_foreign (consulted : Consulted history machine) (sound : machine.Sound)
    (foreign : machine.Foreign move) (outside : progress.Outside)
    (stepped : machine.step? move = some (progress, after)) :
    let now : Moment := ⟨machine, move, progress, after⟩
    machine.collector.Inquires (captured? (now :: history)) (tries (now :: history)) []
      (now.answered? machine.collector.sized?) after.collector progress where
  known := consulted.known_of_foreign sound foreign stepped
  measures same := by
    subst same
    cases outside
  symbolizes same := by
    subst same
    cases outside
  turns := ⟨[], (Progress.queued_eq_nil outside).symm, List.forall_mem_nil _⟩
  sizes {handle sample size} found measured := by
    have followed (ages : machine.collector.Ages after.collector handle) :
        ∃ old, machine.collector.store.sample? handle = some old ∧ old.size = some size := by
      obtain ⟨old, before, kept⟩ := ages sample found
      exact ⟨old, before, kept.follows.size_eq.symm.trans measured⟩
    rcases sound.recorded_cases foreign stepped with
      ⟨-, ages⟩ | ⟨own, identity, tags, stack, -, fresh, ages⟩
    · obtain ⟨old, before, kept⟩ := followed (ages handle)
      exact ⟨old, before, .inl kept⟩
    · by_cases same : handle = own
      · cases same
        cases fresh.symm.trans found
        cases measured
      · obtain ⟨old, before, kept⟩ := followed (ages handle same)
        exact ⟨old, before, .inl kept⟩

theorem queued_of_foreign (foreign : machine.Foreign move) :
    Moment.queued ⟨machine, move, progress, after⟩ = [] := by
  cases foreign with
  | call passing => rw [Moment.queued, (Machine.Foreign.call passing).beginsFlush_eq]; rfl
  | answer waiting outside =>
      simp only [Moment.queued, waiting]
      exact Suspended.queued_eq_nil outside
  | rehash => rfl

theorem inquires (consulted : Consulted history machine) (conducted : Conducted history machine)
    (sound : machine.Sound) (stepped : machine.step? move = some (progress, after)) :
    let now : Moment := ⟨machine, move, progress, after⟩
    machine.collector.Inquires (captured? (now :: history)) (tries (now :: history)) now.queued
      (now.answered? machine.collector.sized?) after.collector progress := by
  intro now
  have backed := conducted.backed
  cases sound.passage stepped with
  | passes foreign passed outside cycles_eq waiting_subset =>
      rw [queued_of_foreign foreign]
      exact consulted.inquires_of_foreign sound foreign outside stepped
  | begins move_eq idle cycles_eq went waiting_eq =>
      subst move_eq
      rename_i clock
      have queued_eq : now.queued = machine.collector.store.live.map Prod.snd := by
        simp [now, Moment.queued, Moment.beginsFlush, idle]
      rw [Conducted.filterMap_out?_eq_nil cycles_eq] at backed
      rw [queued_eq, captured?_eq rfl, tries_eq rfl]
      exact Collector.inquires_of_flush idle (sound.balanced_idle idle) backed consulted.known went
  | proceeds move_eq before_eq inside cycles_eq flushing went waiting_eq =>
      subst move_eq
      rename_i host suspended cycle outer
      have waits : suspended ∈ machine.waiting := before_eq ▸ List.mem_cons_self ..
      have unrecorded : now.recorded? = none := by
        cases suspended with
        | capturing => cases inside
        | _ => simp [now, Moment.recorded?, before_eq]
      rw [before_eq, Conducted.filterMap_out?_cons suspended cycles_eq] at backed
      rw [captured?_eq unrecorded, tries_eq unrecorded]
      simp only [now, Moment.queued, Moment.answered?, before_eq]
      refine Collector.inquires_of_resume inside (sound.balanced_underway waits inside)
        (sound.waiting suspended waits) backed consulted.known ?_ went
      rintro own handle backtrace rest rfl
      exact consulted.stack_eq waits

/-- A request that was out before is still about the sample that it was about. -/
theorem stack_eq_of_foreign (consulted : Consulted history machine) (sound : machine.Sound)
    (foreign : machine.Foreign move) (stepped : machine.step? move = some (progress, after))
    (passed : machine.collector.Passes after.collector machine.held) {cycle : Cycle}
    {backtrace : Backtrace} {rest : List Handle}
    (waits : .symbolizing cycle handle backtrace rest ∈ machine.waiting) :
    captured? (⟨machine, move, progress, after⟩ :: history) handle = some backtrace := by
  have before := consulted.stack_eq waits
  rcases sound.recorded_cases foreign stepped with
    ⟨unrecorded, -⟩ | ⟨own, identity, tags, stack, recorded, fresh, -⟩
  · rw [captured?_eq unrecorded]
    exact before
  · by_cases same : handle = own
    · -- The flush owns its sample, so what has been recorded cannot have taken its place.
      subst same
      obtain ⟨-, remains, -⟩ := sound.waiting _ waits
      have owned : handle ∈ machine.held := List.mem_flatMap.mpr
        ⟨cycle, List.mem_filterMap.mpr ⟨_, waits, rfl⟩, remains.subset (List.mem_cons_self ..)⟩
      obtain ⟨old, sample, old_found, found, ages⟩ := passed.ages handle owned
      cases fresh.symm.trans found
      have stack_eq := consulted.known.stack_eq old_found ages.backtrace_eq.symm
      rw [captured?_of_recorded (by rw [recorded, noteOn?_self]), ← stack_eq]
      exact before
    · rw [captured?_of_unrecorded (by rw [recorded, noteOn?_other same])]
      exact before

theorem step (consulted : Consulted history machine) (conducted : Conducted history machine)
    (sound : machine.Sound) (stepped : machine.step? move = some (progress, after))
    (nodup : (latestSnapshot (⟨machine, move, progress, after⟩ :: history)).Nodup) :
    Consulted (⟨machine, move, progress, after⟩ :: history) after := by
  have inquires := consulted.inquires conducted sound stepped
  obtain ⟨passed, split, -⟩ := inquires.turns
  cases sound.passage stepped with
  | passes foreign passes outside cycles_eq waiting_subset =>
      have other : Moment.beginsFlush ⟨machine, move, progress, after⟩ = false :=
        foreign.beginsFlush_eq
      refine ⟨inquires.known, fun waits => ?_, ?_⟩
      · have before := (waiting_subset _ waits).resolve_right (fun outside => nomatch outside)
        exact consulted.stack_eq_of_foreign sound foreign stepped passes before
      · have no_turns : Moment.turns ⟨machine, move, progress, after⟩ = [] := by
          rw [Moment.turns, queued_of_foreign foreign]
          rfl
        rw [latestTurns, other, if_neg Bool.false_ne_true, no_turns, List.append_nil,
          Conducted.flatMap_of_foreign Suspended.queued_eq_nil foreign stepped outside,
          latestSnapshot_cons other]
        exact consulted.turns_eq
  | begins move_eq idle cycles_eq went waiting_eq =>
      subst move_eq
      rename_i clock
      have begins : Moment.beginsFlush ⟨machine, .call (.flush clock), progress, after⟩ = true := by
        simp [Moment.beginsFlush, idle]
      have queued_eq : Moment.queued ⟨machine, .call (.flush clock), progress, after⟩ =
          latestSnapshot (⟨machine, .call (.flush clock), progress, after⟩ :: history) := by
        rw [latestSnapshot_of_begins begins, Moment.queued, begins, if_pos rfl]
      refine ⟨inquires.known, fun waits => ?_, ?_⟩
      · have asks := progress.eq_waiting_of_mem_onto cycles_eq (waiting_eq ▸ waits) rfl
        exact (inquires.symbolizes asks).2.1
      · rw [← queued_eq] at nodup
        rw [latestTurns, begins, if_pos rfl, Moment.turns_eq nodup split, waiting_eq,
          Progress.flatMap_queued_onto, flatMap_queued_eq_nil cycles_eq, List.append_nil,
          ← queued_eq]
        exact split.symm
  | proceeds move_eq before_eq inside cycles_eq flushing went waiting_eq =>
      subst move_eq
      rename_i host suspended cycle outer
      have other : Moment.beginsFlush ⟨machine, .answer host, progress, after⟩ = false := rfl
      have queued_eq : Moment.queued ⟨machine, .answer host, progress, after⟩ =
        suspended.queued := by
        simp [Moment.queued, before_eq]
      have turns_eq := consulted.turns_eq
      rw [before_eq, List.flatMap_cons, flatMap_queued_eq_nil cycles_eq, List.append_nil,
        ← queued_eq] at turns_eq
      refine ⟨inquires.known, fun waits => ?_, ?_⟩
      · have asks := progress.eq_waiting_of_mem_onto cycles_eq (waiting_eq ▸ waits) rfl
        exact (inquires.symbolizes asks).2.1
      · rw [latestSnapshot_cons other, ← turns_eq] at nodup ⊢
        rw [latestTurns, other, if_neg Bool.false_ne_true,
          Moment.turns_eq nodup.of_append_right split, waiting_eq, Progress.flatMap_queued_onto,
          flatMap_queued_eq_nil cycles_eq, List.append_nil, List.append_assoc]
        exact congrArg (latestTurns history ++ ·) split.symm

end Consulted

theorem consulted_of_run (run : Run settings history machine) : Consulted history machine := by
  induction run with
  | created created =>
      unfold Collector.create at created
      split at created
      · cases created
        have vacant (handle : Handle) :
            Store.sample? { maxSamples := settings.maxSamples } handle = none := by
          simp [Store.sample?, Arena.get?, Arena.owned?]
        refine ⟨⟨fun found => ?_, fun found => ?_⟩, fun waits => absurd waits List.not_mem_nil, rfl⟩
        · cases (vacant _).symm.trans found
        · cases (vacant _).symm.trans found
      · cases created
  | moved run stepped ih =>
      exact ih.step (conducted_of_run run) run.sound stepped
        (latestSnapshot_nodup (.moved run stepped))

namespace Machine

/-- Answers that a waiting call goes on with alike make no difference. -/
theorem step?_answer_congr {host other : Host} {suspended : Suspended} {outer : List Suspended}
    (waiting : machine.waiting = suspended :: outer)
    (same : machine.collector.resume suspended (host.answer suspended.request) =
      machine.collector.resume suspended (other.answer suspended.request)) :
    machine.step? (.answer host) = machine.step? (.answer other) := by
  simp only [step?, waiting, same]

/-- A size that comes for a sample that is released is not stored: it is as if there were none. -/
theorem step?_measuring {cycle : Cycle} {included rest : List Handle} {identity : Identity}
    {outer : List Suspended} (host : Host)
    (waiting : machine.waiting = .measuring cycle included handle identity rest :: outer)
    (released : machine.collector.hasReleased handle = true) :
    machine.step? (.answer host) =
      machine.step? (.answer { host with objectSize := fun _ => none }) := by
  refine step?_answer_congr waiting ?_
  have resumed (answer : Option UInt64) :
      machine.collector.resume (.measuring cycle included handle identity rest) answer =
        machine.collector.measureFrom cycle included rest :=
    Collector.resumeMeasure_of_released released answer
  exact (resumed (host.objectSize identity)).trans (resumed none).symm

end Machine

/-- What the host is asked at a moment, and what comes of its answers. -/
structure Moment.Asked (moment : Moment) (earlier : List Moment) : Prop where
  /-- It is asked for a size while the identity is live and names the sample that is measured. -/
  measures : ∀ {cycle : Cycle} {included : List Handle} {handle : Handle} {identity : Identity}
    {rest : List Handle},
    moment.progress = .waiting (.measuring cycle included handle identity rest) →
      moment.after.collector.store.handle? identity = some handle
  /-- It is asked for the places of a sample that is not released, with the call stack that was
  captured for it, and only if it has had none for it so far. -/
  symbolizes : ∀ {cycle : Cycle} {handle : Handle} {backtrace : Backtrace} {rest : List Handle},
    moment.progress = .waiting (.symbolizing cycle handle backtrace rest) →
      (∃ sample, moment.after.collector.store.sample? handle = some sample ∧
        sample.isReleased = false) ∧
      captured? (moment :: earlier) handle = some backtrace ∧
      true ∉ tries (moment :: earlier) handle
  /-- The samples that it has had places for are those that have their places. -/
  symbolized_iff : ∀ {handle : Handle} {sample : Sample},
    moment.after.collector.store.sample? handle = some sample →
      (sample.isSymbolized = true ↔ true ∈ tries (moment :: earlier) handle)
  /-- Each sample of the snapshot has its turn, in order. -/
  turns_eq : latestTurns (moment :: earlier) ++ moment.after.waiting.flatMap Suspended.queued =
    latestSnapshot (moment :: earlier)
  /-- If the sample is not released then, and the host has had no places for it whenever it was
  asked, it is asked now, with the call stack that was captured. -/
  turns : ∀ handle ∈ moment.turns, moment.before.collector.hasReleased handle = false →
    true ∉ tries (moment :: earlier) handle →
      ∃ cycle backtrace rest,
        moment.progress = .waiting (.symbolizing cycle handle backtrace rest) ∧
        captured? (moment :: earlier) handle = some backtrace
  /-- A size that was not there before has been told for a sample that was not released. -/
  sizes : ∀ {handle : Handle} {sample : Sample} {size : UInt64},
    moment.after.collector.store.sample? handle = some sample → sample.size = some size →
      ∃ old, moment.before.collector.store.sample? handle = some old ∧
        (old.size = some size ∨ old.isReleased = false ∧
          moment.answered? moment.before.collector.sized? = some (handle, size))
  /-- If the sample that is measured is released, its size is as good as none. -/
  unwanted : ∀ {cycle : Cycle} {included : List Handle} {handle : Handle} {identity : Identity}
    {rest : List Handle} {outer : List Suspended} (host : Host),
    moment.after.waiting = .measuring cycle included handle identity rest :: outer →
    moment.after.collector.hasReleased handle = true →
      moment.after.step? (.answer host) =
        moment.after.step? (.answer { host with objectSize := fun _ => none })

/--
What the host is asked at any moment of a run, whatever it calls in turn while it is asked.  A
sample is symbolized once at most, and as long as it has no places each flush whose snapshot it is
in asks for them again, unless the sample is released when its turn comes.  Nothing is asked about
objects that are gone, and no sample of such an object gets a size.
-/
theorem asked_of_run {earlier : List Moment} (run : Run settings (moment :: earlier) machine) :
    moment.Asked earlier := by
  have consulted := consulted_of_run run
  cases run with
  | moved run stepped =>
      have inquires := (consulted_of_run run).inquires (conducted_of_run run) run.sound stepped
      constructor
      case measures => exact inquires.measures
      case symbolizes => exact inquires.symbolizes
      case symbolized_iff => exact consulted.known.symbolized_iff
      case turns_eq => exact consulted.turns_eq
      case turns =>
        intro handle listed live unplaced
        obtain ⟨passed, split, asks⟩ := inquires.turns
        obtain ⟨queued, past⟩ := List.mem_filter.mp listed
        rw [split] at queued
        have now := (List.mem_append.mp queued).resolve_right (of_decide_eq_true past)
        exact asks handle now live unplaced
      case sizes => exact inquires.sizes
      case unwanted =>
        intro cycle included handle identity rest outer host waiting released
        exact machine.step?_measuring host waiting released

/--
A first flush finds no places for the one of two samples; the object of the other one is moved while
it is symbolized.  Then a second flush begins.
-/
def askedTwice : List Move :=
  let answer := Move.answer (.uniform [⟨"work", "work.rb", 7⟩])
  [.call (.start 0), answer, .call (.allocate ⟨1⟩ [] 0), answer, .call (.allocate ⟨2⟩ [] 0), answer,
    .call (.flush ⟨0, 0⟩),
    .answer { Host.uniform [] with symbolize := fun _ => .error (.unresolvedFrame 7) },
    .call (.relocate ⟨2⟩ ⟨3⟩), answer, answer, .call (.flush ⟨0, 0⟩)]

theorem asked_of_askedTwice :
    ∃ moment earlier machine handle,
      replay { sampleRate := 1, compression := .none } askedTwice =
        some (moment :: earlier, machine) ∧
      handle ∈ moment.turns ∧ tries (moment :: earlier) handle = [false] ∧
      ∃ cycle rest,
        moment.progress = .waiting (.symbolizing cycle handle ⟨[⟨7⟩]⟩ rest) := by
  obtain ⟨history, machine, replayed, checked⟩ := exists_of_replay
    { sampleRate := 1, compression := .none } askedTwice
    (fun run => run.1.head?.any fun moment => moment.turns.any fun handle =>
      !moment.before.collector.hasReleased handle &&
        decide (tries run.1 handle = [false] ∧ captured? run.1 handle = some ⟨[⟨7⟩]⟩))
    (by decide +kernel)
  cases history with
  | nil => cases checked
  | cons moment earlier =>
      obtain ⟨handle, turn, found⟩ := List.any_eq_true.mp checked
      obtain ⟨live, tried, stack_eq⟩ := by
        simpa only [Bool.and_eq_true, Bool.not_eq_true', decide_eq_true_eq] using found
      have asked := asked_of_run (Run.of_replay replayed)
      obtain ⟨cycle, backtrace, rest, asks, same⟩ := asked.turns handle turn live (by simp [tried])
      cases stack_eq.symm.trans same
      exact ⟨moment, earlier, machine, handle, replayed, turn, tried, cycle, rest, asks⟩

end HeapSampler
