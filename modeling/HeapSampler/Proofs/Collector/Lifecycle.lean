import Mathlib
import HeapSampler.Proofs.Collector.Asked

/-!
# The life of a sample

A sample goes through its states in one direction.  It is symbolized at most once and released at
most once; its tags stay, its places stay once it has them, and its size stays once it is released.
Until it is symbolized it has the backtrace that was captured for it, unless that is out with a
request.  What the host calls while it is asked, be it about this very sample, changes nothing of
this.
-/

namespace HeapSampler

structure Sample.Precedes (old new : Sample) : Prop where
  stays_released : old.isReleased = true → new.isReleased = true
  stays_symbolized : old.isSymbolized = true → new.isSymbolized = true
  tags_eq : new.tags = old.tags
  locations_eq : old.isSymbolized = true → new.locations = old.locations
  size_eq : old.isReleased = true → new.size = old.size

namespace Sample.Precedes

variable {first second third : Sample}

theorem refl (sample : Sample) : sample.Precedes sample := ⟨id, id, rfl, fun _ => rfl, fun _ => rfl⟩

theorem trans (one : first.Precedes second) (two : second.Precedes third) :
    first.Precedes third where
  stays_released released := two.stays_released (one.stays_released released)
  stays_symbolized symbolized := two.stays_symbolized (one.stays_symbolized symbolized)
  tags_eq := two.tags_eq.trans one.tags_eq
  locations_eq symbolized :=
    (two.locations_eq (one.stays_symbolized symbolized)).trans (one.locations_eq symbolized)
  size_eq released :=
    (two.size_eq (one.stays_released released)).trans (one.size_eq released)

theorem of_ages (ages : first.Ages second) : first.Precedes second where
  stays_released := ages.stays_released
  stays_symbolized symbolized := ages.symbolized_eq.trans symbolized
  tags_eq := ages.tags_eq
  locations_eq _ := ages.locations_eq
  size_eq _ := ages.size_eq

end Sample.Precedes

namespace Collector

variable {collector next after : Collector} {cycle : Cycle} {included rest : List Handle}
  {progress : Progress} {handle : Handle} {old new : Sample}

def Precedes (before after : Collector) (handle : Handle) : Prop :=
  ∀ sample, after.store.sample? handle = some sample →
    ∃ old, before.store.sample? handle = some old ∧ old.Precedes sample

namespace Precedes

theorem of_ages (ages : collector.Ages after handle) : collector.Precedes after handle := by
  intro sample found
  obtain ⟨old, before, older⟩ := ages sample found
  exact ⟨old, before, .of_ages older⟩

theorem trans (one : collector.Precedes next handle) (two : next.Precedes after handle) :
    collector.Precedes after handle := by
  intro sample found
  obtain ⟨middle, between, later⟩ := two sample found
  obtain ⟨old, before, earlier⟩ := one middle between
  exact ⟨old, before, earlier.trans later⟩

theorem of_reads {arena : Arena} (found : collector.store.sample? handle = some old)
    (reads : ∀ other, arena.get? other =
      if other = handle then some new else collector.store.sample? other)
    (precedes : old.Precedes new) (tables : Tables) (other : Handle) :
    collector.Precedes
      { collector with inventory := { store := { collector.store with arena }, tables } }
      other := by
  intro sample reached
  rcases Arena.eq_or_ne_of_get? reads reached with ⟨rfl, rfl⟩ | ⟨-, before⟩
  · exact ⟨old, found, precedes⟩
  · exact ⟨sample, before, .refl sample⟩

end Precedes

/-! ## Stretches of a flush -/

theorem MeasuresNext.precedes (next : MeasuresNext collector cycle included rest after progress)
    (balanced : collector.inventory.Balanced [] cycle.snapshot []) (handle : Handle) :
    collector.Precedes after handle := by
  cases next with
  | waits => exact .of_ages (.refl collector handle)
  | finishes none_left finished =>
      exact .of_ages fun _ found => (Collector.finishes finished).survives balanced found

theorem SymbolizesNext.precedes (next : SymbolizesNext collector cycle rest after progress)
    (balanced : collector.inventory.Balanced [] cycle.snapshot []) (handle : Handle) :
    collector.Precedes after handle := by
  cases next with
  | waits passed settled found present unreleased unsymbolized modified =>
      obtain ⟨arena, modified', reads, -⟩ :=
        balanced.touch Sample.withoutBacktrace found rfl rfl (.inr rfl) rfl rfl
      cases modified.symm.trans modified'
      exact .of_reads found reads ⟨id, id, rfl, fun _ => rfl, fun _ => rfl⟩ collector.tables handle
  | measures settled next => exact next.precedes balanced handle

theorem precedes_of_flush {clock : Clock} (idle : collector.flushing = false)
    (balanced : collector.inventory.Balanced [] [] [])
    (went : collector.flush clock = .ok (after, progress)) (handle : Handle) :
    collector.Precedes after handle := by
  obtain ⟨arena, begun, reads, balanced'⟩ := flush_of_idle idle balanced clock
  have stays : collector.Precedes
      { collector.withStore { collector.store with arena, dropped := 0 } with flushing := true }
      handle :=
    fun sample found => ⟨sample, (reads handle).symm.trans found, .refl sample⟩
  exact stays.trans ((symbolizesNext (begun.symm.trans went)).precedes balanced' handle)

/-- A sample gets places only if it had none. -/
theorem precedes_of_resumeSymbolize {backtrace : Backtrace}
    {answer : Except SymbolizationError (List NamedPlace)}
    (balanced : collector.inventory.Balanced [] cycle.snapshot [])
    (sound : Suspended.Sound collector.inventory (.symbolizing cycle handle backtrace rest))
    (went : collector.resumeSymbolize cycle handle backtrace rest answer = .ok (after, progress))
    (other : Handle) : collector.Precedes after other := by
  obtain ⟨-, -, old, found, unsymbolized⟩ := sound
  cases answer with
  | error cause =>
      obtain ⟨arena, resumed, reads, balanced'⟩ :=
        resumeSymbolize_of_error balanced found backtrace rest cause
      have put_back :
          collector.Precedes (collector.withStore { collector.store with arena }) other :=
        .of_reads found reads ⟨id, id, rfl, fun _ => rfl, fun _ => rfl⟩ collector.tables other
      exact put_back.trans ((symbolizesNext (resumed.symm.trans went)).precedes balanced' other)
  | ok places =>
      rcases resumeSymbolize_of_places balanced found unsymbolized backtrace rest places with
        ⟨cause, -, refused⟩ | ⟨tables, locations, arena, -, resumed, reads, balanced'⟩
      · cases refused.symm.trans went
      · have placed : old.Precedes (old.symbolized locations) :=
          ⟨id, fun _ => rfl, rfl,
            fun done => absurd (unsymbolized.symm.trans done) Bool.false_ne_true,
            fun _ => rfl⟩
        have changed : collector.Precedes
            { collector with inventory := { store := { collector.store with arena }, tables } }
            other := .of_reads found reads placed tables other
        exact changed.trans ((symbolizesNext (resumed.symm.trans went)).precedes balanced' other)

/-- A sample gets a size only if it is not released. -/
theorem precedes_of_resumeMeasure {answer : Option UInt64}
    (balanced : collector.inventory.Balanced [] cycle.snapshot [])
    (went : collector.resumeMeasure cycle included handle rest answer = .ok (after, progress))
    (other : Handle) : collector.Precedes after other := by
  rcases resumeMeasure_cases balanced handle included rest answer with
    resumed | ⟨sample, size, arena, -, found, unreleased, resumed, reads, balanced'⟩
  · exact (measuresNext (resumed.symm.trans went)).precedes balanced other
  · have sized : sample.Precedes (sample.measured size) :=
      ⟨id, id, rfl, fun _ => rfl, fun released =>
        absurd (unreleased.symm.trans released) Bool.false_ne_true⟩
    have changed : collector.Precedes (collector.withStore { collector.store with arena }) other :=
      .of_reads found reads sized collector.tables other
    exact changed.trans ((measuresNext (resumed.symm.trans went)).precedes balanced' other)

theorem precedes_of_resume {suspended : Suspended} {answer : suspended.request.Answer}
    (inside : suspended.cycle? = some cycle)
    (balanced : collector.inventory.Balanced [] cycle.snapshot [])
    (sound : suspended.Sound collector.inventory)
    (went : collector.resume suspended answer = .ok (after, progress)) (handle : Handle) :
    collector.Precedes after handle := by
  cases suspended with
  | symbolizing own handle backtrace rest =>
      cases inside
      exact precedes_of_resumeSymbolize balanced sound went _
  | measuring own included handle identity rest =>
      cases inside
      exact precedes_of_resumeMeasure balanced went _
  | capturing => cases inside
  | subscribing => cases inside
  | unsubscribing => cases inside

end Collector

/-! ## Moments -/

variable {settings : Settings} {history : List Moment} {machine after : Machine} {move : Move}
  {progress : Progress} {handle : Handle} {sample : Sample}

/-- A sample has just been recorded, or it has come from what it was before the move. -/
theorem Machine.Sound.precedes_of_step (sound : machine.Sound)
    (stepped : machine.step? move = some (progress, after))
    (found : after.collector.store.sample? handle = some sample) :
    let now : Moment := ⟨machine, move, progress, after⟩
    (∃ identity tags stack, noteOn? handle now.recorded? = some stack ∧
        sample = .new identity tags stack) ∨
      noteOn? handle now.recorded? = none ∧
        ∃ old, machine.collector.store.sample? handle = some old ∧ old.Precedes sample := by
  intro now
  cases sound.passage stepped with
  | begins move_eq idle cycles_eq went waiting_eq =>
      subst move_eq
      exact .inr ⟨rfl,
        Collector.precedes_of_flush idle (sound.balanced_idle idle) went handle sample found⟩
  | proceeds move_eq before_eq inside cycles_eq flushing went waiting_eq =>
      subst move_eq
      rename_i host suspended cycle outer
      have waits : suspended ∈ machine.waiting := before_eq ▸ List.mem_cons_self ..
      have unrecorded : now.recorded? = none := by
        cases suspended with
        | capturing => cases inside
        | _ => simp [now, Moment.recorded?, before_eq]
      exact .inr ⟨by rw [unrecorded]; rfl,
        Collector.precedes_of_resume inside (sound.balanced_underway waits inside)
          (sound.waiting suspended waits) went handle sample found⟩
  | passes foreign passed outside cycles_eq waiting_subset =>
      rcases sound.recorded_cases foreign stepped with
        ⟨unrecorded, ages⟩ | ⟨own, identity, tags, stack, recorded, fresh, ages⟩
      · exact .inr ⟨by rw [unrecorded]; rfl, Collector.Precedes.of_ages (ages handle) sample found⟩
      · by_cases same : handle = own
        · subst same
          cases fresh.symm.trans found
          exact .inl ⟨identity, tags, stack, by rw [recorded, noteOn?_self], rfl⟩
        · exact .inr ⟨by rw [recorded, noteOn?_other same],
            Collector.Precedes.of_ages (ages handle same) sample found⟩

/-- Where a sample has come from: the moment at which it was recorded, with the call stack that was
captured for it, and those since then, the latest in front. -/
structure Sample.Descends (sample : Sample) (handle : Handle) (stack : Backtrace) (birth : Moment)
    (since : List Moment) : Prop where
  recorded : noteOn? handle birth.recorded? = some stack
  born : ∃ identity tags,
    birth.after.collector.store.sample? handle = some (.new identity tags stack) ∧
      (Sample.new identity tags stack).Precedes sample
  /-- No other sample has taken the handle, and what the sample was before each moment precedes
  what it is now. -/
  since : ∀ moment ∈ since, noteOn? handle moment.recorded? = none ∧
    ∃ old, moment.before.collector.store.sample? handle = some old ∧ old.Precedes sample

namespace Sample.Descends

variable {stack : Backtrace} {birth : Moment} {since earlier : List Moment} {old : Sample}

theorem step (descends : old.Descends handle stack birth since) {moment : Moment}
    (unrecorded : noteOn? handle moment.recorded? = none)
    (before : moment.before.collector.store.sample? handle = some old)
    (precedes : old.Precedes sample) : sample.Descends handle stack birth (moment :: since) where
  recorded := descends.recorded
  born := by
    obtain ⟨identity, tags, found, first⟩ := descends.born
    exact ⟨identity, tags, found, first.trans precedes⟩
  since := by
    refine List.forall_mem_cons.mpr ⟨⟨unrecorded, old, before, precedes⟩, fun other listed => ?_⟩
    obtain ⟨other_unrecorded, own, found, first⟩ := descends.since other listed
    exact ⟨other_unrecorded, own, found, first.trans precedes⟩

theorem captured?_eq (descends : sample.Descends handle stack birth since) :
    captured? (since ++ birth :: earlier) handle = some stack := by
  have unrecorded : ∀ moment ∈ since, noteOn? handle moment.recorded? = none :=
    fun moment listed => (descends.since moment listed).1
  rw [captured?, List.findSome?_append, List.findSome?_eq_none_iff.mpr unrecorded,
    List.findSome?_cons, descends.recorded]
  rfl

end Sample.Descends

/-! ## Runs -/

/-- A collector that has just been created has no samples. -/
theorem Collector.sample?_of_create {collector : Collector}
    (created : Collector.create settings = .ok collector) (handle : Handle) :
    collector.store.sample? handle = none := by
  unfold Collector.create at created
  split at created
  · cases created
    exact congrArg (Option.map _) (Arena.owned?_of_vacant rfl)
  · cases created

/-- Every sample was recorded once, and what it is now has come from what it was then. -/
theorem exists_birth (run : Run settings history machine)
    (found : machine.collector.store.sample? handle = some sample) :
    ∃ since birth earlier stack, history = since ++ birth :: earlier ∧
      sample.Descends handle stack birth since := by
  induction run generalizing sample with
  | created created => cases (Collector.sample?_of_create created handle).symm.trans found
  | moved run stepped ih =>
      rename_i history machine after move progress
      rcases run.sound.precedes_of_step stepped found with
        ⟨identity, tags, stack, recorded, rfl⟩ | ⟨unrecorded, old, before, precedes⟩
      · exact ⟨[], _, history, stack, rfl, recorded, ⟨identity, tags, found, .refl _⟩,
          List.forall_mem_nil _⟩
      · obtain ⟨since, birth, earlier, stack, rfl, descends⟩ := ih before
        exact ⟨_ :: since, birth, earlier, stack, rfl, descends.step unrecorded before precedes⟩

/-- What a sample is at any time, whatever calls wait. -/
structure Sample.Keeps (sample : Sample) (handle : Handle) (stack : Backtrace)
    (waiting : List Suspended) : Prop where
  nameless_iff : sample.identity = none ↔ sample.isReleased = true
  unplaced : sample.isSymbolized = false → sample.locations = []
  /-- Unless its backtrace is out with a request, it is the call stack that was captured. -/
  backtrace_eq : sample.isSymbolized = false →
    sample.backtrace = some stack ∨ ∃ cycle rest, .symbolizing cycle handle stack rest ∈ waiting

theorem Run.keeps (run : Run settings history machine)
    (found : machine.collector.store.sample? handle = some sample) {stack : Backtrace}
    (captured : captured? history handle = some stack) :
    sample.Keeps handle stack machine.waiting where
  nameless_iff := by
    have balanced := run.sound.balanced
    refine ⟨fun nameless => ?_, balanced.nameless found⟩
    rw [balanced.released_iff found, List.append_nil]
    intro listed
    obtain ⟨⟨identity, own⟩, live, rfl⟩ := List.mem_map.mp listed
    cases nameless.symm.trans (balanced.identity_eq live found)
  unplaced := run.sound.balanced.unplaced found
  backtrace_eq unsymbolized := by
    have consulted := consulted_of_run run
    cases present : sample.backtrace with
    | some backtrace =>
        rw [← consulted.known.stack_eq found present]
        exact .inl captured
    | none =>
        have out := (conducted_of_run run).backed handle sample found unsymbolized present
        obtain ⟨suspended, waits, out_eq⟩ := List.mem_filterMap.mp out
        cases suspended with
        | symbolizing cycle own backtrace rest =>
            cases out_eq
            cases captured.symm.trans (consulted.stack_eq waits)
            exact .inr ⟨cycle, rest, waits⟩
        | measuring => cases out_eq
        | capturing => cases out_eq
        | subscribing => cases out_eq
        | unsubscribing => cases out_eq

/-- On every run, whatever the host calls while it is asked, a sample goes from the moment at which
it was recorded to the moment at which it is destroyed without taking back anything. -/
theorem lifecycle_of_run (run : Run settings history machine)
    (found : machine.collector.store.sample? handle = some sample) :
    ∃ since birth earlier stack, history = since ++ birth :: earlier ∧
      sample.Descends handle stack birth since ∧ sample.Keeps handle stack machine.waiting := by
  obtain ⟨since, birth, earlier, stack, rfl, descends⟩ := exists_birth run found
  exact ⟨since, birth, earlier, stack, rfl, descends, run.keeps found descends.captured?_eq⟩

/-- While its backtrace is out for symbolization the object is moved, and then released. -/
def releasedWhileSymbolized : List Move :=
  let answer := Move.answer (.uniform [⟨"work", "work.rb", 7⟩])
  [.call (.start 0), answer, .call (.allocate ⟨1⟩ [("job", "mail")] 0), answer,
    .call (.flush ⟨0, 0⟩), .call (.relocate ⟨1⟩ ⟨2⟩), .call (.release ⟨2⟩)]

theorem lifecycle_of_releasedWhileSymbolized :
    ∃ history machine sample since birth earlier stack cycle rest,
      replay { sampleRate := 1 } releasedWhileSymbolized = some (history, machine) ∧
      machine.collector.store.sample? ⟨0, 0⟩ = some sample ∧ sample.isReleased = true ∧
      sample.identity = none ∧ history = since ++ birth :: earlier ∧
      sample.Descends ⟨0, 0⟩ stack birth since ∧
      .symbolizing cycle ⟨0, 0⟩ stack rest ∈ machine.waiting := by
  obtain ⟨history, machine, replayed, checked⟩ := exists_of_replay { sampleRate := 1 }
    releasedWhileSymbolized
    (fun run => (run.2.collector.store.sample? ⟨0, 0⟩).any fun sample : Sample =>
      sample.isReleased && !sample.isSymbolized && decide (sample.backtrace = none))
    (by decide +kernel)
  obtain ⟨sample, found, passed⟩ := (Option.any_eq_true _ _).mp checked
  simp only [Bool.and_eq_true, Bool.not_eq_true', decide_eq_true_eq] at passed
  obtain ⟨⟨released, unsymbolized⟩, out⟩ := passed
  obtain ⟨since, birth, earlier, stack, history_eq, descends, keeps⟩ :=
    lifecycle_of_run (Run.of_replay replayed) found
  obtain present | ⟨cycle, rest, waits⟩ := keeps.backtrace_eq unsymbolized
  · cases out.symm.trans present
  · exact ⟨history, machine, sample, since, birth, earlier, stack, cycle, rest, replayed, found,
      released, keeps.nameless_iff.mpr released, history_eq, descends, waits⟩

end HeapSampler
