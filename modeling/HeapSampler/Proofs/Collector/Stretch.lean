import Mathlib
import HeapSampler.Collector.Call
import HeapSampler.Proofs.Store.Events
import HeapSampler.Proofs.Store.Exhaustion

/-!
# Stretches of calls

A stretch is either part of a flush or it passes by the flush that may be under way.  The first
kind hands the snapshot on to the next stretch or gives it back; the second keeps every sample of
the snapshot, which may only age.
-/

namespace HeapSampler

def Suspended.cycle? : Suspended → Option Cycle
  | symbolizing cycle _ _ _ => some cycle
  | measuring cycle _ _ _ _ => some cycle
  | capturing _ _ | subscribing | unsubscribing => none

/-- What a waiting flush is to export already, the sample measured last in front. -/
def Suspended.included : Suspended → List Handle
  | measuring _ included _ _ _ => included
  | symbolizing .. | capturing _ _ | subscribing | unsubscribing => []

/--
What a waiting flush relies on: it goes through its snapshot in order, and no other call gives
places to the sample that is out for symbolization.
-/
def Suspended.Sound (inventory : Inventory) : Suspended → Prop
  | symbolizing cycle handle _ rest =>
      cycle.snapshot.Nodup ∧ handle :: rest <:+ cycle.snapshot ∧
        ∃ sample, inventory.store.sample? handle = some sample ∧ sample.isSymbolized = false
  | measuring cycle included handle _ rest =>
      cycle.snapshot.Nodup ∧
        ∃ passed, cycle.snapshot = passed ++ handle :: rest ∧ included.reverse.Sublist passed
  | capturing _ _ | subscribing | unsubscribing => True

/-- A stretch that is not part of a flush can only find that there is one. -/
def Progress.Outside : Progress → Prop
  | waiting suspended => suspended.cycle? = none
  | replied (.flushed result) => result = .error .alreadyFlushing
  | replied .noted | replied (.settled _) => True

theorem Suspended.sound_of_cycle?_eq_none {suspended : Suspended} {inventory : Inventory}
    (outside : suspended.cycle? = none) : suspended.Sound inventory := by
  cases suspended with
  | symbolizing => cases outside
  | measuring => cases outside
  | capturing => trivial
  | subscribing => trivial
  | unsubscribing => trivial

namespace Collector

variable {collector after : Collector} {cycle : Cycle} {included rest held : List Handle}
  {progress : Progress}

/-! ## Stretches of a flush -/

inductive MeasuresNext (collector : Collector) (cycle : Cycle) (included : List Handle) :
    List Handle → Collector → Progress → Prop where
  | waits (passed : List Handle) {later : List Handle} {handle : Handle} {identity : Identity}
      (none_before : ∀ other ∈ passed, collector.measurable? other = none)
      (found : collector.measurable? handle = some identity) :
      MeasuresNext collector cycle included (passed ++ handle :: later) collector
        (.waiting (.measuring cycle included handle identity later))
  | finishes {rest : List Handle} {after : Collector} {progress : Progress}
      (none_left : ∀ other ∈ rest, collector.measurable? other = none)
      (finished : collector.finish cycle included.reverse = .ok (after, progress)) :
      MeasuresNext collector cycle included rest after progress

theorem MeasuresNext.skip {handle : Handle} (skipped : collector.measurable? handle = none)
    (next : MeasuresNext collector cycle included rest after progress) :
    MeasuresNext collector cycle included (handle :: rest) after progress := by
  cases next with
  | waits passed none_before found =>
      rw [← List.cons_append]
      exact .waits (handle :: passed) (List.forall_mem_cons.mpr ⟨skipped, none_before⟩) found
  | finishes none_left finished =>
      exact .finishes (List.forall_mem_cons.mpr ⟨skipped, none_left⟩) finished

theorem measuresNext (went : collector.measureFrom cycle included rest = .ok (after, progress)) :
    MeasuresNext collector cycle included rest after progress := by
  induction rest with
  | nil => exact .finishes (fun _ member => absurd member List.not_mem_nil) went
  | cons handle rest ih =>
      unfold measureFrom at went
      split at went
      · rename_i identity found
        cases went
        exact .waits [] (List.forall_mem_nil _) found
      · rename_i skipped
        exact (ih went).skip skipped

def Settled (collector : Collector) (handle : Handle) : Prop :=
  ∃ sample, collector.store.sample? handle = some sample ∧
    (sample.backtrace = none ∨ sample.isReleased = true ∨ sample.isSymbolized = true)

inductive SymbolizesNext (collector : Collector) (cycle : Cycle) :
    List Handle → Collector → Progress → Prop where
  | waits (passed : List Handle) {later : List Handle} {handle : Handle} {backtrace : Backtrace}
      {sample : Sample} {store : Store} (settled : ∀ other ∈ passed, collector.Settled other)
      (found : collector.store.sample? handle = some sample)
      (present : sample.backtrace = some backtrace) (unreleased : sample.isReleased = false)
      (unsymbolized : sample.isSymbolized = false)
      (modified : collector.store.modify handle Sample.withoutBacktrace = .ok store) :
      SymbolizesNext collector cycle (passed ++ handle :: later) (collector.withStore store)
        (.waiting (.symbolizing cycle handle backtrace later))
  | measures {rest : List Handle} {after : Collector} {progress : Progress}
      (settled : ∀ other ∈ rest, collector.Settled other)
      (next : MeasuresNext collector cycle [] cycle.snapshot after progress) :
      SymbolizesNext collector cycle rest after progress

theorem SymbolizesNext.skip {handle : Handle} (skipped : collector.Settled handle)
    (next : SymbolizesNext collector cycle rest after progress) :
    SymbolizesNext collector cycle (handle :: rest) after progress := by
  cases next with
  | waits passed settled found present unreleased unsymbolized modified =>
      rw [← List.cons_append]
      exact .waits (handle :: passed) (List.forall_mem_cons.mpr ⟨skipped, settled⟩) found present
        unreleased unsymbolized modified
  | measures settled next => exact .measures (List.forall_mem_cons.mpr ⟨skipped, settled⟩) next

theorem symbolizesNext (went : collector.symbolizeFrom cycle rest = .ok (after, progress)) :
    SymbolizesNext collector cycle rest after progress := by
  induction rest with
  | nil => exact .measures (fun _ member => absurd member List.not_mem_nil) (measuresNext went)
  | cons handle rest ih =>
      unfold symbolizeFrom at went
      split at went
      · cases went
      · rename_i sample found
        split at went
        · rename_i missing
          exact (ih went).skip ⟨sample, found, .inl missing⟩
        · rename_i backtrace present
          split at went
          · rename_i done
            exact (ih went).skip ⟨sample, found, .inr (by simpa using done)⟩
          · rename_i due
            rw [Bool.or_eq_true, not_or, Bool.not_eq_true, Bool.not_eq_true] at due
            cases modified : collector.store.modify handle Sample.withoutBacktrace with
            | error breach => simp [modified, bind, Except.bind] at went
            | ok store =>
                simp only [modified, bind, Except.bind, pure, Except.pure, Except.ok.injEq,
                  Prod.mk.injEq] at went
                obtain ⟨rfl, rfl⟩ := went
                exact .waits [] (List.forall_mem_nil _) found
                  present due.1 due.2 modified

inductive Finishes (collector : Collector) (cycle : Cycle) (included : List Handle) :
    Collector → Progress → Prop where
  | exported {inventory : Inventory} {bytes : List UInt8}
      (encoded : encodeProfile collector.tables (included.filterMap collector.store.sample?)
        cycle.options = .ok bytes)
      (released : collector.inventory.releaseSnapshot cycle.snapshot = .ok inventory) :
      Finishes collector cycle included { collector with inventory, flushing := false }
        (.replied (.flushed (.ok {
          bytes
          sampleCount := included.length
          droppedCount := cycle.dropped
          processedCount := cycle.snapshot.length
          skippedCount := cycle.skipped })))
  | failed {inventory : Inventory} {cause : EncodeError}
      (encoded : encodeProfile collector.tables (included.filterMap collector.store.sample?)
        cycle.options = .error cause)
      (released : collector.inventory.releaseSnapshot cycle.snapshot = .ok inventory) :
      Finishes collector cycle included
        { collector with
          inventory := { inventory with store := inventory.store.restoreDropped cycle.dropped }
          flushing := false }
        (.replied (.flushed (.error (.encodingFailure cause))))

theorem finishes (went : collector.finish cycle included = .ok (after, progress)) :
    Finishes collector cycle included after progress := by
  unfold finish at went
  cases released : collector.inventory.releaseSnapshot cycle.snapshot with
  | error breach => simp [released, bind, Except.bind] at went
  | ok inventory =>
      simp only [released, bind, Except.bind, pure, Except.pure] at went
      split at went
      · rename_i cause encoded
        cases went
        exact .failed encoded released
      · rename_i bytes encoded
        cases went
        exact .exported encoded released

/-! ## How a stretch of a flush begins -/

/-- A flush that begins retains every live sample and takes the pending drops. -/
theorem flush_of_idle (idle : collector.flushing = false)
    (balanced : collector.inventory.Balanced [] [] []) (clock : Clock) :
    ∃ arena, collector.flush clock =
        { collector.withStore { collector.store with arena, dropped := 0 } with
          flushing := true }.symbolizeFrom
          { snapshot := collector.store.live.map Prod.snd
            dropped := collector.store.dropped
            options := collector.exportOptions clock }
          (collector.store.live.map Prod.snd) ∧
      (∀ handle, arena.get? handle = collector.store.sample? handle) ∧
      (collector.withStore { collector.store with arena, dropped := 0 }).inventory.Balanced []
        (collector.store.live.map Prod.snd) [] := by
  obtain ⟨store,
      (taken : collector.store.snapshot = .ok (collector.store.live.map Prod.snd, store))⟩ :=
    balanced.exists_snapshot fun _ => by simp [Arena.maxWord]
  obtain ⟨-, balanced', arena, rfl, reads⟩ := balanced.snapshot taken
  rw [List.append_nil] at balanced'
  refine ⟨arena, ?_, reads, { balanced' with }⟩
  simp only [flush, idle, Bool.false_eq_true, if_false, taken, bind, Except.bind]
  rfl

section Answers

variable {handle : Handle} {old : Sample}

/-- Without places, a sample gets its backtrace back and counts as skipped. -/
theorem resumeSymbolize_of_error (balanced : collector.inventory.Balanced [] cycle.snapshot [])
    (found : collector.store.sample? handle = some old) (backtrace : Backtrace)
    (rest : List Handle) (cause : SymbolizationError) :
    ∃ arena, collector.resumeSymbolize cycle handle backtrace rest (.error cause) =
        (collector.withStore { collector.store with arena }).symbolizeFrom
          { cycle with skipped := cycle.skipped + 1 } rest ∧
      (∀ other, arena.get? other =
        if other = handle then some (old.withBacktrace backtrace)
        else collector.store.sample? other) ∧
      (collector.withStore { collector.store with arena }).inventory.Balanced [] cycle.snapshot
        [] := by
  obtain ⟨arena, (modified : collector.store.modify _ _ = .ok { collector.store with arena }),
    reads, -, -, balanced'⟩ :=
      balanced.touch (·.withBacktrace backtrace) found rfl rfl (.inr rfl) rfl rfl
  refine ⟨arena, ?_, reads, balanced'⟩
  simp only [resumeSymbolize, modified]

/-- The places of a sample are interned and given to it, unless the tables are at their end. -/
theorem resumeSymbolize_of_places (balanced : collector.inventory.Balanced [] cycle.snapshot [])
    (found : collector.store.sample? handle = some old) (unsymbolized : old.isSymbolized = false)
    (backtrace : Backtrace) (rest : List Handle) (places : List NamedPlace) :
    (∃ cause, collector.tables.internPlaces places = .error cause ∧
      collector.resumeSymbolize cycle handle backtrace rest (.ok places) =
        .error (.interning cause)) ∨
    ∃ tables locations arena, collector.tables.internPlaces places = .ok (tables, locations) ∧
      collector.resumeSymbolize cycle handle backtrace rest (.ok places) =
        { collector with
          inventory := { store := { collector.store with arena }, tables } }.symbolizeFrom
            cycle rest ∧
      (∀ other, arena.get? other =
        if other = handle then some (old.symbolized locations)
        else collector.store.sample? other) ∧
      Inventory.Balanced { store := { collector.store with arena }, tables } [] cycle.snapshot
        [] := by
  cases interned : collector.tables.internPlaces places with
  | error cause =>
      refine .inl ⟨cause, rfl, ?_⟩
      simp only [resumeSymbolize, interned]
  | ok result =>
      obtain ⟨tables, locations⟩ := result
      obtain ⟨counted, -, -⟩ := balanced.tables.intern_places interned
      obtain ⟨arena, (modified : collector.store.modify _ _ = .ok { collector.store with arena }),
        reads, balanced'⟩ := balanced.symbolize found unsymbolized counted
      refine .inr ⟨tables, locations, arena, rfl, ?_, reads, balanced'⟩
      simp only [resumeSymbolize, interned, modified, bind, Except.bind]

/-- The size of a sample that is not released goes to it, and the sample is to be exported. -/
theorem resumeMeasure_of_size (balanced : collector.inventory.Balanced [] cycle.snapshot [])
    (found : collector.store.sample? handle = some old) (unreleased : old.isReleased = false)
    (included rest : List Handle) (size : UInt64) :
    ∃ arena, collector.resumeMeasure cycle included handle rest (some size) =
        (collector.withStore { collector.store with arena }).measureFrom cycle
          (handle :: included) rest ∧
      (∀ other, arena.get? other =
        if other = handle then some (old.measured size) else collector.store.sample? other) ∧
      (collector.withStore { collector.store with arena }).inventory.Balanced [] cycle.snapshot
        [] := by
  obtain ⟨arena, (modified : collector.store.modify _ _ = .ok { collector.store with arena }),
    reads, -, -, balanced'⟩ := balanced.touch (·.measured size) found rfl rfl (.inr rfl) rfl rfl
  refine ⟨arena, ?_, reads, balanced'⟩
  simp only [resumeMeasure, found, unreleased, Bool.false_eq_true, if_false, modified, bind,
    Except.bind]

/-- The answer to a request for a size is passed over, or it is the size of a live sample. -/
theorem resumeMeasure_cases (balanced : collector.inventory.Balanced [] cycle.snapshot [])
    (handle : Handle) (included rest : List Handle) (answer : Option UInt64) :
    collector.resumeMeasure cycle included handle rest answer =
        collector.measureFrom cycle included rest ∨
      ∃ old size arena, answer = some size ∧ collector.store.sample? handle = some old ∧
        old.isReleased = false ∧
        collector.resumeMeasure cycle included handle rest answer =
          (collector.withStore { collector.store with arena }).measureFrom cycle
            (handle :: included) rest ∧
        (∀ other, arena.get? other =
          if other = handle then some (old.measured size) else collector.store.sample? other) ∧
        (collector.withStore { collector.store with arena }).inventory.Balanced [] cycle.snapshot
          [] := by
  cases found : collector.store.sample? handle with
  | none =>
      left
      simp only [resumeMeasure, found]
  | some old =>
      cases answer with
      | none =>
          left
          simp only [resumeMeasure, found]
      | some size =>
          cases released : old.isReleased with
          | true =>
              left
              simp only [resumeMeasure, found, released, if_true]
          | false =>
              obtain ⟨arena, resumed, reads, balanced'⟩ :=
                resumeMeasure_of_size balanced found released included rest size
              exact .inr ⟨old, size, arena, rfl, rfl, released, resumed, reads, balanced'⟩

end Answers

/-! ## The snapshot of a flush -/

/--
A stretch of a flush hands the snapshot, the drops and what is `included` on to the next one, or it
ends the flush: with an export that reports the drops, or with a failure that puts them back to
those `pending`.  The live table stays as it is.
-/
def Carries (cycle : Cycle) (included : List Handle) (live : List (Identity × Handle))
    (pending : Nat) (after : Collector) : Progress → Prop
  | .waiting suspended =>
      after.flushing = true ∧ after.inventory.Balanced [] cycle.snapshot [] ∧
        suspended.Sound after.inventory ∧ after.store.live = live ∧ after.store.dropped = pending ∧
        suspended.included = included ∧ ∃ skipped, suspended.cycle? = some { cycle with skipped }
  | .replied reply =>
      after.flushing = false ∧ after.inventory.Balanced [] [] [] ∧ after.store.live = live ∧
        (∃ encoding skipped, encoding.inventory.Balanced [] cycle.snapshot [] ∧
          encoding.store.live = live ∧
          Finishes encoding { cycle with skipped } included.reverse after (.replied reply)) ∧
        ((∃ profile, reply = .flushed (.ok profile) ∧ profile.droppedCount = cycle.dropped ∧
            after.store.dropped = pending) ∨
          ∃ cause, reply = .flushed (.error (.encodingFailure cause)) ∧
            after.store.dropped = min (pending + cycle.dropped) Store.maxDropped)

/-- A stretch of a flush leaves the live table alone. -/
theorem Carries.live_eq {live : List (Identity × Handle)} {pending : Nat}
    (carries : Carries cycle included live pending after progress) : after.store.live = live := by
  cases progress with
  | waiting suspended => exact carries.2.2.2.1
  | replied reply => exact carries.2.2.1

theorem Finishes.carries (finished : Finishes collector cycle included.reverse after progress)
    (balanced : collector.inventory.Balanced [] cycle.snapshot []) :
    Carries cycle included collector.store.live collector.store.dropped after progress := by
  obtain ⟨inventory, released', balanced', live_eq, aged⟩ :=
    (show collector.inventory.Balanced [] (cycle.snapshot ++ []) [] by
      simpa using balanced).releaseSnapshot
  cases finished with
  | exported encoded released =>
      cases released.symm.trans released'
      exact ⟨rfl, balanced', live_eq, ⟨collector, cycle.skipped, balanced, rfl,
        .exported encoded released⟩, .inl ⟨_, rfl, rfl, aged.dropped_eq⟩⟩
  | failed encoded released =>
      cases released.symm.trans released'
      refine ⟨rfl, { balanced' with }, live_eq, ⟨collector, cycle.skipped, balanced, rfl,
        .failed encoded released⟩, .inr ⟨_, rfl, ?_⟩⟩
      exact congrArg (fun count => min (count + cycle.dropped) Store.maxDropped) aged.dropped_eq

theorem MeasuresNext.carries (next : MeasuresNext collector cycle included rest after progress)
    (flushing : collector.flushing = true)
    (balanced : collector.inventory.Balanced [] cycle.snapshot []) (nodup : cycle.snapshot.Nodup)
    {passed : List Handle} (split : cycle.snapshot = passed ++ rest)
    (ordered : included.reverse.Sublist passed) :
    Carries cycle included collector.store.live collector.store.dropped after progress := by
  cases next with
  | waits skipped none_before found =>
      refine ⟨flushing, balanced, ⟨nodup, passed ++ skipped, ?_,
        ordered.trans (List.sublist_append_left _ _)⟩, rfl, rfl, rfl, cycle.skipped, rfl⟩
      rw [split, List.append_assoc]
  | finishes none_left finished => exact (Collector.finishes finished).carries balanced

theorem SymbolizesNext.carries (next : SymbolizesNext collector cycle rest after progress)
    (flushing : collector.flushing = true)
    (balanced : collector.inventory.Balanced [] cycle.snapshot []) (nodup : cycle.snapshot.Nodup)
    (remains : rest <:+ cycle.snapshot) :
    Carries cycle [] collector.store.live collector.store.dropped after progress := by
  cases next with
  | waits passed settled found present unreleased unsymbolized modified =>
      rename_i later handle backtrace sample store
      obtain ⟨arena, modified', reads, -, -, balanced'⟩ :=
        balanced.touch Sample.withoutBacktrace found rfl rfl (.inr rfl) rfl rfl
      cases modified.symm.trans modified'
      exact ⟨flushing, balanced', ⟨nodup, (List.suffix_append passed _).trans remains,
        sample.withoutBacktrace, (reads handle).trans (if_pos rfl), unsymbolized⟩, rfl, rfl, rfl,
        cycle.skipped, rfl⟩
  | measures settled next =>
      exact next.carries flushing balanced nodup (List.nil_append _).symm (List.Sublist.refl _)

theorem carries_of_flush {clock : Clock} (idle : collector.flushing = false)
    (balanced : collector.inventory.Balanced [] [] [])
    (went : collector.flush clock = .ok (after, progress)) :
    Carries
      { snapshot := collector.store.live.map Prod.snd
        dropped := collector.store.dropped
        options := collector.exportOptions clock }
      [] collector.store.live 0 after progress := by
  obtain ⟨arena, begun, -, balanced'⟩ := flush_of_idle idle balanced clock
  have nodup := balanced.handles_nodup
  rw [List.append_nil] at nodup
  exact (symbolizesNext (begun.symm.trans went)).carries rfl balanced' nodup (List.suffix_refl _)

theorem carries_of_resumeSymbolize {handle : Handle} {backtrace : Backtrace}
    {answer : Except SymbolizationError (List NamedPlace)} (flushing : collector.flushing = true)
    (balanced : collector.inventory.Balanced [] cycle.snapshot [])
    (sound : Suspended.Sound collector.inventory (.symbolizing cycle handle backtrace rest))
    (went : collector.resumeSymbolize cycle handle backtrace rest answer = .ok (after, progress)) :
    Carries cycle [] collector.store.live collector.store.dropped after progress := by
  obtain ⟨nodup, remains, sample, found, unsymbolized⟩ := sound
  have later : rest <:+ cycle.snapshot := (List.suffix_cons handle rest).trans remains
  cases answer with
  | error cause =>
      obtain ⟨arena, resumed, -, balanced'⟩ :=
        resumeSymbolize_of_error balanced found backtrace rest cause
      exact (symbolizesNext (resumed.symm.trans went)).carries flushing balanced' nodup later
  | ok places =>
      rcases resumeSymbolize_of_places balanced found unsymbolized backtrace rest places with
        ⟨cause, -, refused⟩ | ⟨tables, locations, arena, -, resumed, -, balanced'⟩
      · cases refused.symm.trans went
      · exact (symbolizesNext (resumed.symm.trans went)).carries flushing balanced' nodup later

/-- The sample that an answer adds to those to be exported: it has a size and is still live. -/
def measured? (collector : Collector) : (suspended : Suspended) → suspended.request.Answer →
    Option Handle
  | .measuring _ _ handle _ _, answer =>
      match collector.store.sample? handle, answer with
      | some sample, some _ => if sample.isReleased then none else some handle
      | _, _ => none
  | .symbolizing .., _ | .capturing _ _, _ | .subscribing, _ | .unsubscribing, _ => none

theorem carries_of_resumeMeasure {handle : Handle} {identity : Identity} {answer : Option UInt64}
    (flushing : collector.flushing = true)
    (balanced : collector.inventory.Balanced [] cycle.snapshot [])
    (sound : Suspended.Sound collector.inventory
      (.measuring cycle included handle identity rest))
    (went : collector.resumeMeasure cycle included handle rest answer = .ok (after, progress)) :
    Carries cycle
      ((collector.measured? (.measuring cycle included handle identity rest) answer).toList ++
        included)
      collector.store.live collector.store.dropped after progress := by
  obtain ⟨nodup, passed, split, ordered⟩ := sound
  have split' : cycle.snapshot = (passed ++ [handle]) ++ rest := by simp [split]
  have ordered' : included.reverse.Sublist (passed ++ [handle]) :=
    ordered.trans (List.sublist_append_left _ _)
  cases found : collector.store.sample? handle with
  | none =>
      simp only [resumeMeasure, found] at went
      simp only [measured?, found, Option.toList_none, List.nil_append]
      exact (measuresNext went).carries flushing balanced nodup split' ordered'
  | some sample =>
      cases answer with
      | none =>
          simp only [resumeMeasure, found] at went
          simp only [measured?, found, Option.toList_none, List.nil_append]
          exact (measuresNext went).carries flushing balanced nodup split' ordered'
      | some size =>
          cases released : sample.isReleased with
          | true =>
              simp only [resumeMeasure, found, released, if_true] at went
              simp only [measured?, found, released, if_true, Option.toList_none, List.nil_append]
              exact (measuresNext went).carries flushing balanced nodup split' ordered'
          | false =>
              obtain ⟨arena, resumed, -, balanced'⟩ :=
                resumeMeasure_of_size balanced found released included rest size
              simp only [measured?, found, released, Bool.false_eq_true, if_false,
                Option.toList_some, List.singleton_append]
              refine (measuresNext (resumed.symm.trans went)).carries flushing balanced' nodup
                split' ?_
              rw [List.reverse_cons]
              exact ordered.append (List.Sublist.refl _)

/-! ## Stretches outside the flush -/

/--
A flush under way keeps its samples, which may have aged, and the books balance.  Whatever else
there is has aged as well, or it is fresh.
-/
structure Passes (before after : Collector) (held : List Handle) : Prop where
  flushing_eq : after.flushing = before.flushing
  balanced : after.inventory.Balanced [] held []
  ages : ∀ handle ∈ held, ∃ old sample, before.store.sample? handle = some old ∧
    after.store.sample? handle = some sample ∧ old.Ages sample
  descends : ∀ handle sample, after.store.sample? handle = some sample →
    (∃ old, before.store.sample? handle = some old ∧ old.Ages sample) ∨
      ∃ identity tags backtrace, sample = .new identity tags backtrace

theorem Passes.refl (balanced : collector.inventory.Balanced [] held []) :
    collector.Passes collector held where
  flushing_eq := rfl
  balanced := balanced
  ages handle owned := by
    obtain ⟨sample, found⟩ := balanced.exists_sample_iff.mpr
      (show handle ∈ _ from List.mem_append_right _ owned)
    exact ⟨sample, sample, found, found, .refl sample⟩
  descends _ sample found := .inl ⟨sample, found, .refl sample⟩

theorem passes_of_ages (flushing_eq : after.flushing = collector.flushing)
    (balanced : after.inventory.Balanced [] held [])
    (aged : collector.inventory.Ages after.inventory []) : collector.Passes after held where
  flushing_eq := flushing_eq
  balanced := balanced
  ages handle owned := balanced.exists_aged aged handle (List.mem_append_right _ owned)
  descends _ _ found := .inl (aged.survives found)

theorem passes_of_allocate {identity : Identity} {tags : List (String × String)} {draw : UInt32}
    (balanced : collector.inventory.Balanced [] held [])
    (went : collector.allocate identity tags draw = (after, progress)) :
    collector.Passes after held := by
  unfold allocate at went
  split at went
  · cases went
    exact .refl balanced
  · split at went
    · cases went
      exact { Passes.refl balanced with balanced := { balanced with } }
    · cases went
      exact .refl balanced

/-- A capture interns the tags of its sample and records it. -/
theorem exists_recorded {identity : Identity} {tags : List (String × String)}
    {backtrace : Backtrace} (balanced : collector.inventory.Balanced [] held [])
    (running : collector.running = true)
    (went : collector.resumeCapture identity tags backtrace = .ok after) :
    ∃ tables ids inventory result, collector.tables.Extends tables ∧
      ids.map tables.tag? =
        (overlay collector.settings.settings.globalTags.entries tags).map some ∧
      Inventory.Balanced { collector.inventory with tables } [] held (ids.flatMap Tag.texts) ∧
      Inventory.recordAllocation { collector.inventory with tables } identity ids backtrace =
        .ok (inventory, result) ∧
      after = { collector with inventory } := by
  unfold resumeCapture at went
  rw [if_neg (by simp [running])] at went
  dsimp only at went
  split at went
  · cases went
  · rename_i tables ids interned
    obtain ⟨counted, extends_, stands⟩ := balanced.tables.intern_tags interned
    simp only [bind, Except.bind] at went
    split at went
    · cases went
    · rename_i recorded recorded_eq
      cases went
      exact ⟨tables, ids, recorded.1, recorded.2, extends_, stands,
        { balanced with tables := counted }, recorded_eq, rfl⟩

/-- Nothing is recorded if the collector was stopped while the backtrace was captured. -/
theorem resumeCapture_of_stopped {identity : Identity} {tags : List (String × String)}
    {backtrace : Backtrace} (stopped : collector.running = false) :
    collector.resumeCapture identity tags backtrace = .ok collector := by
  simp [resumeCapture, stopped]

theorem passes_of_resumeCapture {identity : Identity} {tags : List (String × String)}
    {backtrace : Backtrace} (balanced : collector.inventory.Balanced [] held [])
    (went : collector.resumeCapture identity tags backtrace = .ok after) :
    collector.Passes after held := by
  cases running : collector.running with
  | false =>
      cases (resumeCapture_of_stopped running).symm.trans went
      exact .refl balanced
  | true =>
      obtain ⟨tables, ids, inventory, result, -, -, spared, recorded, rfl⟩ :=
        exists_recorded balanced running went
      obtain ⟨middle, balanced', aged, -, balanced'', outcome⟩ :=
        spared.recordAllocation (.of_eq (List.append_nil _).symm) recorded
      have owned_ages (handle : Handle) (owned : handle ∈ held) :=
        balanced'.exists_aged aged handle (List.mem_append_right _ owned)
      rcases outcome with ⟨-, -, store_eq, -⟩ | ⟨-, -, arena, fresh, unowned, reads, rfl⟩
      · have reads (handle : Handle) :
            inventory.store.sample? handle = middle.store.sample? handle := by
          rw [store_eq]
          rfl
        refine ⟨rfl, balanced'', fun handle owned => ?_, fun handle sample found => ?_⟩
        · obtain ⟨old, sample, before, now, same⟩ := owned_ages handle owned
          exact ⟨old, sample, before, (reads handle).trans now, same⟩
        · exact .inl (aged.survives ((reads handle).symm.trans found))
      · refine ⟨rfl, balanced'', fun handle owned => ?_, fun handle sample found => ?_⟩
        · obtain ⟨old, sample, before, now, same⟩ := owned_ages handle owned
          have apart : handle ≠ fresh := by
            rintro rfl
            exact unowned (List.mem_append_right _ owned)
          exact ⟨old, sample, before, ((reads handle).trans (if_neg apart)).trans now, same⟩
        · rcases Arena.eq_or_ne_of_get? reads found with ⟨-, rfl⟩ | ⟨-, before⟩
          · exact .inr ⟨identity, ids, backtrace, rfl⟩
          · exact .inl (aged.survives before)

theorem passes_of_release {identity : Identity} (balanced : collector.inventory.Balanced [] held [])
    (went : collector.release identity = .ok after) : collector.Passes after held := by
  obtain ⟨inventory, released, balanced', -, aged⟩ := balanced.recordRelease identity
  simp only [release, released, bind, Except.bind, pure, Except.pure] at went
  cases went
  exact passes_of_ages rfl balanced' aged

theorem passes_of_relocate {old new : Identity} (balanced : collector.inventory.Balanced [] held [])
    (went : collector.relocate old new = .ok after) : collector.Passes after held := by
  obtain ⟨inventory, relocated, balanced', aged, -⟩ := balanced.recordRelocation old new
  simp only [relocate, relocated, bind, Except.bind, pure, Except.pure] at went
  cases went
  exact passes_of_ages rfl balanced' aged

/-- What starting a session does, unless one is under way. -/
theorem start_cases {instant : Nat} (balanced : collector.inventory.Balanced [] held [])
    (went : collector.start instant = .ok (after, progress)) :
    collector.running = true ∧ after = collector ∧
        progress = .replied (.settled (.error .alreadyRunning)) ∨
      collector.running = false ∧ progress = .waiting .subscribing ∧
        ∃ cleared, cleared.Balanced [] held [] ∧ cleared.store.live = [] ∧
          collector.inventory.Ages cleared [] ∧
          after = { collector with
            inventory := { cleared with store := cleared.store.takeDropped.2 }
            running := true
            sessionStart := some instant } := by
  unfold start at went
  cases running : collector.running with
  | true =>
      simp only [running, if_true, Except.ok.injEq, Prod.mk.injEq] at went
      exact .inl ⟨rfl, went.1.symm, went.2.symm⟩
  | false =>
      obtain ⟨cleared, cleared_eq, balanced', live_eq, aged⟩ := balanced.clear
      simp only [running, Bool.false_eq_true, if_false, cleared_eq, bind, Except.bind, pure,
        Except.pure, Except.ok.injEq, Prod.mk.injEq] at went
      exact .inr ⟨rfl, went.2.symm, cleared, balanced', live_eq, aged, went.1.symm⟩

theorem passes_of_start {instant : Nat} (balanced : collector.inventory.Balanced [] held [])
    (went : collector.start instant = .ok (after, progress)) : collector.Passes after held := by
  rcases start_cases balanced went with ⟨-, rfl, -⟩ | ⟨-, -, cleared, balanced', -, aged, rfl⟩
  · exact .refl balanced
  · have passes : collector.Passes { collector with inventory := cleared } held :=
      passes_of_ages rfl balanced' aged
    exact { passes with balanced := { balanced' with } }

/-- Whether it was running or not, a collector that is stopped passes by the flush. -/
theorem passes_of_halt {refusal : Reply} (balanced : collector.inventory.Balanced [] held [])
    (refused : (Progress.replied refusal).Outside)
    (went : (if collector.running then
        ({ collector with running := false }, Progress.waiting .unsubscribing)
      else (collector, .replied refusal)) = (after, progress)) :
    collector.Passes after held ∧ progress.Outside := by
  split at went
  · cases went
    exact ⟨{ Passes.refl balanced with }, rfl⟩
  · cases went
    exact ⟨.refl balanced, refused⟩

theorem passes_of_configure {settings : Settings} {result : Except CollectorError Unit}
    (balanced : collector.inventory.Balanced [] held [])
    (went : collector.configure settings = (after, result)) : collector.Passes after held := by
  unfold configure at went
  split at went
  · cases went
    exact .refl balanced
  · cases went
    exact { Passes.refl balanced with balanced := { balanced with } }

theorem passes_of_setGlobalTags {tags : TagMap} {result : Except CollectorError Unit}
    (balanced : collector.inventory.Balanced [] held [])
    (went : collector.setGlobalTags tags = (after, result)) : collector.Passes after held := by
  unfold setGlobalTags at went
  split at went
  · cases went
    exact .refl balanced
  · cases went
    exact { Passes.refl balanced with }

/-! ## All stretches -/

/-- A call begins a flush or passes by the one under way. -/
theorem call_cases {call : Call} (balanced : collector.inventory.Balanced [] held [])
    (went : collector.call call = .ok (after, progress)) :
    (∃ clock, call = .flush clock ∧ collector.flushing = false ∧
      collector.flush clock = .ok (after, progress)) ∨
    ((∀ clock, call = .flush clock → collector.flushing = true) ∧
      collector.Passes after held ∧ progress.Outside) := by
  cases call with
  | allocate identity tags draw =>
      refine .inr
        ⟨fun _ same => (nomatch same), passes_of_allocate balanced (Except.ok.inj went), ?_⟩
      simp only [call, allocate, Except.ok.injEq] at went
      split at went
      · cases went
        trivial
      · split at went
        · cases went
          trivial
        · cases went
          rfl
  | release identity =>
      cases released : collector.release identity with
      | error breach => simp [call, released, Except.map] at went
      | ok next =>
          simp only [call, released, Except.map, Except.ok.injEq, Prod.mk.injEq] at went
          obtain ⟨rfl, rfl⟩ := went
          exact .inr ⟨fun _ same => (nomatch same), passes_of_release balanced released, trivial⟩
  | relocate old new =>
      cases relocated : collector.relocate old new with
      | error breach => simp [call, relocated, Except.map] at went
      | ok next =>
          simp only [call, relocated, Except.map, Except.ok.injEq, Prod.mk.injEq] at went
          obtain ⟨rfl, rfl⟩ := went
          exact .inr ⟨fun _ same => (nomatch same), passes_of_relocate balanced relocated, trivial⟩
  | start instant =>
      refine .inr ⟨fun _ same => (nomatch same), passes_of_start balanced went, ?_⟩
      rcases start_cases balanced went with ⟨-, -, rfl⟩ | ⟨-, rfl, -⟩
      · trivial
      · rfl
  | stop =>
      exact .inr ⟨fun _ same => (nomatch same),
        passes_of_halt balanced (by trivial) (Except.ok.inj went)⟩
  | configure settings =>
      simp only [call, Except.ok.injEq, Prod.mk.injEq] at went
      obtain ⟨rfl, rfl⟩ := went
      exact .inr ⟨fun _ same => (nomatch same), passes_of_configure balanced rfl, trivial⟩
  | setGlobalTags tags =>
      simp only [call, Except.ok.injEq, Prod.mk.injEq] at went
      obtain ⟨rfl, rfl⟩ := went
      exact .inr ⟨fun _ same => (nomatch same), passes_of_setGlobalTags balanced rfl, trivial⟩
  | flush clock =>
      cases flushing : collector.flushing with
      | false => exact .inl ⟨clock, rfl, rfl, went⟩
      | true =>
          simp only [call, flush, flushing, if_true, Except.ok.injEq, Prod.mk.injEq] at went
          obtain ⟨rfl, rfl⟩ := went
          exact .inr ⟨fun _ _ => rfl, .refl balanced, rfl⟩
  | retire =>
      exact .inr ⟨fun _ same => (nomatch same),
        passes_of_halt balanced (by trivial) (Except.ok.inj went)⟩

theorem resume_capturing {identity : Identity} {tags : List (String × String)}
    {backtrace : Backtrace}
    (went : collector.resume (.capturing identity tags) backtrace = .ok (after, progress)) :
    collector.resumeCapture identity tags backtrace = .ok after ∧ progress = .replied .noted := by
  cases resumed : collector.resumeCapture identity tags backtrace with
  | error breach => simp [resume, resumed, Except.map] at went
  | ok next =>
      simp only [resume, resumed, Except.map, Except.ok.injEq, Prod.mk.injEq] at went
      obtain ⟨rfl, rfl⟩ := went
      exact ⟨rfl, rfl⟩

/-- What an answer means for a call outside the flush. -/
theorem resume_outside {host : Host} {suspended : Suspended} (outside : suspended.cycle? = none)
    (went : collector.resume suspended (host.answer suspended.request) = .ok (after, progress)) :
    (∃ identity tags, suspended = .capturing identity tags ∧
        collector.resumeCapture identity tags host.stack = .ok after ∧
        progress = .replied .noted) ∨
      (suspended = .subscribing ∨ suspended = .unsubscribing) ∧ after = collector ∧
        progress = .replied (.settled (.ok ())) := by
  cases suspended with
  | capturing identity tags => exact .inl ⟨identity, tags, rfl, resume_capturing went⟩
  | symbolizing => cases outside
  | measuring => cases outside
  | subscribing =>
      cases went
      exact .inr ⟨.inl rfl, rfl, rfl⟩
  | unsubscribing =>
      cases went
      exact .inr ⟨.inr rfl, rfl, rfl⟩

/-- An answer to a call outside the flush ends that call. -/
theorem passes_of_resume {suspended : Suspended} {answer : suspended.request.Answer}
    (outside : suspended.cycle? = none) (balanced : collector.inventory.Balanced [] held [])
    (went : collector.resume suspended answer = .ok (after, progress)) :
    collector.Passes after held ∧ progress.Outside ∧ ∃ reply, progress = .replied reply := by
  cases suspended with
  | capturing identity tags =>
      obtain ⟨resumed, rfl⟩ := resume_capturing went
      exact ⟨passes_of_resumeCapture balanced resumed, trivial, _, rfl⟩
  | symbolizing => cases outside
  | measuring => cases outside
  | subscribing =>
      simp only [resume, Except.ok.injEq, Prod.mk.injEq] at went
      obtain ⟨rfl, rfl⟩ := went
      exact ⟨.refl balanced, trivial, _, rfl⟩
  | unsubscribing =>
      simp only [resume, Except.ok.injEq, Prod.mk.injEq] at went
      obtain ⟨rfl, rfl⟩ := went
      exact ⟨.refl balanced, trivial, _, rfl⟩

theorem carries_of_resume {suspended : Suspended} {answer : suspended.request.Answer}
    (inside : suspended.cycle? = some cycle) (flushing : collector.flushing = true)
    (balanced : collector.inventory.Balanced [] cycle.snapshot [])
    (sound : suspended.Sound collector.inventory)
    (went : collector.resume suspended answer = .ok (after, progress)) :
    Carries cycle ((collector.measured? suspended answer).toList ++ suspended.included)
      collector.store.live collector.store.dropped after progress := by
  cases suspended with
  | symbolizing own handle backtrace rest =>
      cases inside
      exact carries_of_resumeSymbolize flushing balanced sound went
  | measuring own included handle identity rest =>
      cases inside
      exact carries_of_resumeMeasure flushing balanced sound went
  | capturing => cases inside
  | subscribing => cases inside
  | unsubscribing => cases inside

end Collector

end HeapSampler
