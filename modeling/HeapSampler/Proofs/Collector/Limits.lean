import Mathlib
import HeapSampler.Proofs.Collector.Quiet
import HeapSampler.Proofs.Export.RoundTrip

/-!
# Flushes under all size limits

The limit on the size of an export is looked at when everything else has been done.  Under another
limit a flush therefore asks the same, interns the same and encodes the same profile, and what it
sends is told by one profile: the profile itself if the limit has room for it, else a failure.
-/

namespace HeapSampler

def ExportedProfile.within (profile : ExportedProfile) (limit : Nat) :
    Except FlushError ExportedProfile :=
  if profile.bytes.length ≤ limit then .ok profile
  else .error (.encodingFailure (.sizeLimitExceeded limit))

theorem ExportedProfile.within_length (profile : ExportedProfile) :
    profile.within profile.bytes.length = .ok profile := if_pos le_rfl

def Cycle.limitedTo (cycle : Cycle) (limit : Nat) : Cycle :=
  { cycle with options.maxBytes := limit }

namespace Collector

def limitedTo (collector : Collector) (limit : Nat) : Collector :=
  { collector with settings.settings.maxProfileBytes := limit }

/--
Under every limit, an undisturbed call sends this profile as far as the limit has room for it.
-/
def Sends (host : Host) (call : Call) (collector : Collector) (profile : ExportedProfile) : Prop :=
  ∀ limit, ∃ after, perform (quiet host) (collector.limitedTo limit) call =
    .ok (after, .flushed (profile.within limit))

theorem limitedTo_own (collector : Collector) :
    collector.limitedTo collector.settings.settings.maxProfileBytes = collector := rfl

theorem Sends.reply_eq {host : Host} {call : Call} {collector after : Collector}
    {profile : ExportedProfile} {reply : Reply} (sends : collector.Sends host call profile)
    (performed : perform (quiet host) collector call = .ok (after, reply)) :
    reply = .flushed (profile.within collector.settings.settings.maxProfileBytes) := by
  obtain ⟨own, own_performed⟩ := sends collector.settings.settings.maxProfileBytes
  rw [limitedTo_own, performed] at own_performed
  cases own_performed
  rfl

/-! ## Stretches under all limits -/

/-- Where a stretch of a flush leads, from any limit: it breaks or waits or ends in the same way. -/
inductive Parallel (stretch : Nat → Stretch) : Prop where
  | breaks (breach : Breach) (went : ∀ limit, stretch limit = .error breach)
  | symbolizing (collector : Collector) (cycle : Cycle) (handle : Handle) (backtrace : Backtrace)
      (rest : List Handle) (went : ∀ limit, stretch limit = .ok (collector.limitedTo limit,
        .waiting (.symbolizing (cycle.limitedTo limit) handle backtrace rest)))
  | measuring (collector : Collector) (cycle : Cycle) (included : List Handle) (handle : Handle)
      (identity : Identity) (rest : List Handle)
      (went : ∀ limit, stretch limit = .ok (collector.limitedTo limit,
        .waiting (.measuring (cycle.limitedTo limit) included handle identity rest)))
  | finishing (collector : Collector) (cycle : Cycle) (included : List Handle)
      (went : ∀ limit, stretch limit =
        (collector.limitedTo limit).finish (cycle.limitedTo limit) included)

variable {host : Host} {collector after : Collector} {cycle : Cycle} {included rest : List Handle}
  {reply : Reply} {clock : Clock}

theorem Parallel.of_eq {stretch stretch' : Nat → Stretch} (parallel : Parallel stretch')
    (same : ∀ limit, stretch limit = stretch' limit) : Parallel stretch :=
  funext same ▸ parallel

theorem store_limitedTo (collector : Collector) (limit : Nat) :
    (collector.limitedTo limit).store = collector.store := rfl

theorem tables_limitedTo (collector : Collector) (limit : Nat) :
    (collector.limitedTo limit).tables = collector.tables := rfl

theorem parallel_measureFrom (collector : Collector) (cycle : Cycle)
    (included rest : List Handle) : Parallel fun limit =>
      (collector.limitedTo limit).measureFrom (cycle.limitedTo limit) included rest := by
  induction rest with
  | nil => exact .finishing collector cycle included.reverse fun _ => rfl
  | cons handle rest ih =>
      have same (limit : Nat) : (collector.limitedTo limit).measurable? handle =
          collector.measurable? handle := rfl
      cases measurable : collector.measurable? handle with
      | some identity =>
          refine .measuring collector cycle included handle identity rest fun limit => ?_
          simp only [measureFrom, same, measurable]
      | none =>
          refine ih.of_eq fun limit => ?_
          simp only [measureFrom, same, measurable]

theorem parallel_symbolizeFrom (collector : Collector) (cycle : Cycle) (rest : List Handle) :
    Parallel fun limit =>
      (collector.limitedTo limit).symbolizeFrom (cycle.limitedTo limit) rest := by
  induction rest with
  | nil => exact parallel_measureFrom collector cycle [] cycle.snapshot
  | cons handle rest ih =>
      cases found : collector.store.sample? handle with
      | none =>
          refine .breaks (.missingSample handle) fun limit => ?_
          simp only [symbolizeFrom, store_limitedTo, found]
      | some sample =>
          cases present : sample.backtrace with
          | none =>
              refine ih.of_eq fun limit => ?_
              simp only [symbolizeFrom, store_limitedTo, found, present]
          | some backtrace =>
              by_cases settled : (sample.isReleased || sample.isSymbolized) = true
              · refine ih.of_eq fun limit => ?_
                simp only [symbolizeFrom, store_limitedTo, found, present, settled, if_true]
              · cases taken : collector.store.modify handle Sample.withoutBacktrace with
                | error breach =>
                    refine .breaks breach fun limit => ?_
                    simp only [symbolizeFrom, store_limitedTo, found, present, if_neg settled,
                      taken]
                    rfl
                | ok store =>
                    refine .symbolizing (collector.withStore store) cycle handle backtrace rest
                      fun limit => ?_
                    simp only [symbolizeFrom, store_limitedTo, found, present, if_neg settled,
                      taken]
                    rfl

theorem parallel_resumeSymbolize (collector : Collector) (cycle : Cycle) (handle : Handle)
    (backtrace : Backtrace) (rest : List Handle)
    (answer : Except SymbolizationError (List NamedPlace)) : Parallel fun limit =>
      (collector.limitedTo limit).resumeSymbolize (cycle.limitedTo limit) handle backtrace rest
        answer := by
  cases answer with
  | error cause =>
      let skipping : Cycle := { cycle with skipped := cycle.skipped + 1 }
      cases restored : collector.store.modify handle (·.withBacktrace backtrace) with
      | error breach =>
          refine (parallel_symbolizeFrom collector skipping rest).of_eq fun limit => ?_
          simp only [resumeSymbolize, store_limitedTo, restored]
          rfl
      | ok store =>
          refine (parallel_symbolizeFrom (collector.withStore store) skipping rest).of_eq
            fun limit => ?_
          simp only [resumeSymbolize, store_limitedTo, restored]
          rfl
  | ok places =>
      cases interned : collector.tables.internPlaces places with
      | error cause =>
          refine .breaks (.interning cause) fun limit => ?_
          simp only [resumeSymbolize, tables_limitedTo, interned]
      | ok reached =>
          cases placed : collector.store.modify handle (·.symbolized reached.2) with
          | error breach =>
              refine .breaks breach fun limit => ?_
              simp only [resumeSymbolize, tables_limitedTo, store_limitedTo, interned, placed]
              rfl
          | ok store =>
              let next : Collector := { collector with inventory := { store, tables := reached.1 } }
              refine (parallel_symbolizeFrom next cycle rest).of_eq fun limit => ?_
              simp only [resumeSymbolize, tables_limitedTo, store_limitedTo, interned, placed]
              rfl

theorem parallel_resumeMeasure (collector : Collector) (cycle : Cycle) (included : List Handle)
    (handle : Handle) (rest : List Handle) (answer : Option UInt64) : Parallel fun limit =>
      (collector.limitedTo limit).resumeMeasure (cycle.limitedTo limit) included handle rest
        answer := by
  have passed := parallel_measureFrom collector cycle included rest
  cases found : collector.store.sample? handle with
  | none => exact passed.of_eq fun limit => by simp only [resumeMeasure, store_limitedTo, found]
  | some sample =>
      cases answer with
      | none => exact passed.of_eq fun limit => by simp only [resumeMeasure, store_limitedTo, found]
      | some size =>
          by_cases released : sample.isReleased = true
          · refine passed.of_eq fun limit => ?_
            simp only [resumeMeasure, store_limitedTo, found, released, if_true]
          · cases taken : collector.store.modify handle (·.measured size) with
            | error breach =>
                refine .breaks breach fun limit => ?_
                simp only [resumeMeasure, store_limitedTo, found, if_neg released, taken]
                rfl
            | ok store =>
                refine (parallel_measureFrom (collector.withStore store) cycle (handle :: included)
                  rest).of_eq fun limit => ?_
                simp only [resumeMeasure, store_limitedTo, found, if_neg released, taken]
                rfl

theorem parallel_flush (idle : collector.flushing = false) (clock : Clock) :
    Parallel fun limit => (collector.limitedTo limit).flush clock := by
  have idle' (limit : Nat) : (collector.limitedTo limit).flushing = false := idle
  cases taken : collector.store.snapshot with
  | error breach =>
      refine .breaks breach fun limit => ?_
      simp only [flush, idle', store_limitedTo, taken, Bool.false_eq_true, if_false]
      rfl
  | ok reached =>
      let begun : Collector :=
        { collector.withStore reached.2.takeDropped.2 with flushing := true }
      let cycle : Cycle := {
        snapshot := reached.1
        dropped := reached.2.takeDropped.1
        options := collector.exportOptions clock }
      refine (parallel_symbolizeFrom begun cycle reached.1).of_eq fun limit => ?_
      simp only [flush, idle', store_limitedTo, taken, Bool.false_eq_true, if_false]
      rfl

/-! ## Whole flushes under all limits -/

def remaining : Stretch → Nat
  | .ok (_, progress) => progress.remaining
  | .error _ => 0

theorem remaining_resume_lt (collector : Collector) (suspended : Suspended)
    (answer : suspended.request.Answer) :
    remaining (collector.resume suspended answer) < suspended.remaining := by
  cases went : collector.resume suspended answer with
  | ok reached => exact remaining_lt_of_resume went
  | error breach => cases suspended <;> exact Nat.succ_pos _

/-- Driven on, stretches that go alike break in the same way or end with the same samples. -/
theorem driven_of_parallel (host : Host) {stretch : Nat → Stretch} (parallel : Parallel stretch) :
    (∃ breach, ∀ limit, driven host (stretch limit) = .error breach) ∨
      ∃ (last : Collector) (cycle : Cycle) (included : List Handle), ∀ limit,
        driven host (stretch limit) =
          driven host ((last.limitedTo limit).finish (cycle.limitedTo limit) included) := by
  -- Every answer brings the flush nearer to its end, under all limits at once.
  induction count : remaining (stretch 0) using Nat.strong_induction_on generalizing stretch with
  | _ left ih =>
      cases parallel with
      | breaks breach went => exact .inl ⟨breach, fun limit => by rw [went, driven_error]⟩
      | finishing last cycle included went =>
          exact .inr ⟨last, cycle, included, fun limit => by rw [went]⟩
      | symbolizing next cycle handle backtrace rest went =>
          have goes_on (limit : Nat) : driven host (stretch limit) =
              driven host ((next.limitedTo limit).resumeSymbolize (cycle.limitedTo limit) handle
                backtrace rest (host.symbolize backtrace)) := by
            rw [went, driven_waiting]
            rfl
          have fewer := remaining_resume_lt (next.limitedTo 0)
            (.symbolizing (cycle.limitedTo 0) handle backtrace rest) (host.symbolize backtrace)
          rw [went] at count
          simp only [goes_on]
          exact ih _ (fewer.trans_eq count)
            (parallel_resumeSymbolize next cycle handle backtrace rest _) rfl
      | measuring next cycle included handle identity rest went =>
          have goes_on (limit : Nat) : driven host (stretch limit) =
              driven host ((next.limitedTo limit).resumeMeasure (cycle.limitedTo limit) included
                handle rest (host.objectSize identity)) := by
            rw [went, driven_waiting]
            rfl
          have fewer := remaining_resume_lt (next.limitedTo 0)
            (.measuring (cycle.limitedTo 0) included handle identity rest)
            (host.objectSize identity)
          rw [went] at count
          simp only [goes_on]
          exact ih _ (fewer.trans_eq count)
            (parallel_resumeMeasure next cycle included handle rest _) rfl

/-- What a flush replies when it ends, given what came of its export. -/
theorem exists_driven_finish (host : Host) (collector : Collector) (cycle : Cycle)
    (included : List Handle) {inventory : Inventory} {result : Except EncodeError (List UInt8)}
    (released : collector.inventory.releaseSnapshot cycle.snapshot = .ok inventory)
    (encoded : encodeProfile collector.tables (included.filterMap collector.store.sample?)
      cycle.options = result) :
    ∃ after, driven host (collector.finish cycle included) = .ok (after, .flushed (match result with
      | .ok bytes => .ok {
          bytes
          sampleCount := included.length
          droppedCount := cycle.dropped
          processedCount := cycle.snapshot.length
          skippedCount := cycle.skipped }
      | .error cause => .error (.encodingFailure cause))) := by
  cases result with
  | ok bytes =>
      refine ⟨{ collector with inventory, flushing := false }, ?_⟩
      simp only [finish, encoded, released, bind, Except.bind, pure, Except.pure, driven_replied]
  | error cause =>
      refine ⟨{ collector with
        inventory := { inventory with store := inventory.store.restoreDropped cycle.dropped }
        flushing := false }, ?_⟩
      simp only [finish, encoded, released, bind, Except.bind, pure, Except.pure, driven_replied]
      rfl

/--
When a flush ends, its samples cannot be encoded under any limit, or are in one way under all.
-/
theorem exists_ended {inventory : Inventory} (host : Host) (included : List Handle)
    (released : collector.inventory.releaseSnapshot cycle.snapshot = .ok inventory) :
    (∃ cause, ∀ limit, ∃ after, driven host ((collector.limitedTo limit).finish
        (cycle.limitedTo limit) included) =
          .ok (after, .flushed (.error (.encodingFailure cause)))) ∨
      ∃ profile : ExportedProfile, ∀ limit, ∃ after, driven host ((collector.limitedTo limit).finish
        (cycle.limitedTo limit) included) = .ok (after, .flushed (profile.within limit)) := by
  cases drafted : Draft.ofSamples collector.tables (included.filterMap collector.store.sample?) with
  | error cause =>
      refine .inl ⟨cause, fun limit => ?_⟩
      have encoded : encodeProfile collector.tables
          (included.filterMap collector.store.sample?) (cycle.limitedTo limit).options =
            .error cause := by
        simp only [encodeProfile, drafted, bind, Except.bind]
      exact exists_driven_finish host (collector.limitedTo limit) (cycle.limitedTo limit) included
        released encoded
  | ok draft =>
      let bytes := cycle.options.compression.pack (draft.encode cycle.options)
      refine .inr ⟨{
        bytes
        sampleCount := included.length
        droppedCount := cycle.dropped
        processedCount := cycle.snapshot.length
        skippedCount := cycle.skipped }, fun limit => ?_⟩
      have encoded := encodeProfile_eq drafted (cycle.limitedTo limit).options
      by_cases room : bytes.length ≤ limit
      · rw [ExportedProfile.within, if_pos room]
        exact exists_driven_finish host (collector.limitedTo limit) (cycle.limitedTo limit) included
          released (encoded.trans (if_pos room))
      · rw [ExportedProfile.within, if_neg room]
        exact exists_driven_finish host (collector.limitedTo limit) (cycle.limitedTo limit) included
          released (encoded.trans (if_neg room))

/-- An undisturbed flush fails under every limit, or sends one profile under all of them. -/
theorem exists_sends (idle : collector.flushing = false)
    (performed : perform (quiet host) collector (.flush clock) = .ok (after, reply)) :
    (∃ cause, ∀ limit, ∃ after, perform (quiet host) (collector.limitedTo limit) (.flush clock) =
        .ok (after, .flushed (.error (.encodingFailure cause)))) ∨
      ∃ profile, collector.Sends host (.flush clock) profile := by
  have own_limit : driven host ((collector.limitedTo
      collector.settings.settings.maxProfileBytes).flush clock) = .ok (after, reply) := performed
  rcases driven_of_parallel host (parallel_flush idle clock) with
    ⟨breach, went⟩ | ⟨last, cycle, included, went⟩
  · rw [went] at own_limit
    cases own_limit
  · rw [went] at own_limit
    obtain ⟨inventory, released⟩ : ∃ inventory,
        last.inventory.releaseSnapshot cycle.snapshot = .ok inventory := by
      cases finishes_of_driven own_limit with
      | exported encoded released => exact ⟨_, released⟩
      | failed encoded released => exact ⟨_, released⟩
    rcases exists_ended host included released with ⟨cause, ended⟩ | ⟨profile, ended⟩
    · refine .inl ⟨cause, fun limit => ?_⟩
      obtain ⟨after, reached⟩ := ended limit
      exact ⟨after, (went limit).trans reached⟩
    · refine .inr ⟨profile, fun limit => ?_⟩
      obtain ⟨after, reached⟩ := ended limit
      exact ⟨after, (went limit).trans reached⟩

end Collector

end HeapSampler
