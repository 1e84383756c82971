import Mathlib
import HeapSampler.Proofs.Collector.Alike
import HeapSampler.Proofs.Collector.Drops

/-!
# Failed flushes

A flush that fails has had its samples symbolized and measured, and it keeps what it got of that.
Of that only the ids of places can ever be told.  However calls go on, they give results that agree
with those that they would have given without the flush, and later profiles convey the same samples.
But a profile names its places by their ids, and a larger id can take more room, so the limit on the
size of an export can lie between the lengths of the two profiles.
-/

namespace HeapSampler

/--
A flush that exports nothing fails because its profile exceeds the limit or has too many strings.
It leaves all that can be seen as it was, and whatever is called afterwards gives results that agree
with those that it would have given before.
-/
theorem agree_of_failedFlush {settings : Settings} {history : List Moment} {machine : Machine}
    {host : Host} {stack : Backtrace} {clock : Clock} {live : List (Identity × Handle)}
    {after : Collector} {reply : Reply} (run : Run settings history machine)
    (idle : machine.collector.flushing = false)
    (shuffled : machine.collector.store.live.Perm live)
    (performed : Collector.perform (Collector.quiet { host with stack })
      (machine.collector.reordered live) (.flush clock) = .ok (after, reply))
    (failed : ∀ profile, reply ≠ .flushed (.ok profile)) :
    (∃ cause, reply = .flushed (.error (.encodingFailure cause)) ∧
      (cause = .sizeLimitExceeded machine.collector.settings.settings.maxProfileBytes ∨
        cause = .storageFull)) ∧
    machine.collector.LooksLike after ∧ after.flushing = false ∧
    after.store.dropped = machine.collector.store.dropped ∧
    ∀ calls,
      ((∃ results results', Continues host machine.collector calls results ∧
          Continues host after calls results') ∨
        ∃ breach, Breaks host machine.collector calls breach ∨ Breaks host after calls breach) ∧
      (∀ results results', Continues host machine.collector calls results →
        Continues host after calls results' → Agree host 0 0 calls results results') ∧
      ∀ breach, Breaks host machine.collector calls breach ∨ Breaks host after calls breach →
        breach.IsExhaustion := by
  have before_idle : machine.collector.Idle :=
    Collector.idle_of_balanced idle (run.sound.balanced_idle idle)
  have begun_idle := before_idle.reordered shuffled
  have after_idle := begun_idle.perform performed
  obtain ⟨result, encodes, -, -, -, standing_eq, rfl⟩ :=
    Collector.standing_of_flush begun_idle.flushing_eq begun_idle.balanced performed
  cases result with
  | ok bytes => exact absurd rfl (failed _)
  | error cause =>
      have bounded := dropped_le_of_run run
      have alike : (machine.collector.standing host).Alike 0 0 (after.standing host) := by
        rw [standing_eq]
        exact {
          running_eq := rfl
          settings_eq := rfl
          maxSamples_eq := rfl
          live_perm := (Collector.standing_reordered host shuffled).symm
          dropped_le := bounded
          dropped_le' := Nat.min_le_right _ _
          -- The drops that were taken are put back, and there are too few for that to saturate.
          drops_eq := congrArg (fun count => (0 + count) % _) (Nat.min_eq_left bounded).symm }
      refine ⟨⟨cause, rfl, encodes.cause_eq rfl⟩,
        Collector.looksLike_of_alike before_idle after_idle alike, after_idle.flushing_eq,
        (alike.dropped_eq rfl).symm, fun calls => ⟨?_, ?_, ?_⟩⟩
      · rcases continues_or_breaks host machine.collector calls with
          ⟨results, continues⟩ | ⟨breach, breaks⟩
        · rcases continues_or_breaks host after calls with
            ⟨results', continues'⟩ | ⟨breach, breaks⟩
          · exact .inl ⟨results, results', continues, continues'⟩
          · exact .inr ⟨breach, .inr breaks⟩
        · exact .inr ⟨breach, .inl breaks⟩
      · intro results results' continues continues'
        exact agree_of_continues before_idle after_idle alike continues continues'
      · rintro breach (breaks | breaks)
        · exact exhausted_of_breaks before_idle breaks
        · exact exhausted_of_breaks after_idle breaks

/-- One object is live, and there was no room for another. -/
def crowdedAllocation : List Move :=
  let answer := Move.answer (.uniform [⟨"work", "work.rb", 7⟩])
  [.call (.start 0), answer, .call (.allocate ⟨1⟩ [("kind", "page")] 0), answer,
    .call (.allocate ⟨2⟩ [] 0)]

def retriedFlush : List (Call × Backtrace) :=
  [(.configure { sampleRate := 1, maxSamples := 1, compression := .none }, {}),
    (.allocate ⟨3⟩ [] 0, {}), (.flush ⟨1, 1⟩, {})]

theorem agree_of_retriedFlush :
    ∃ history machine after results results' profile,
      replay { sampleRate := 1, maxSamples := 1, maxProfileBytes := 1, compression := .none }
        crowdedAllocation = some (history, machine) ∧
      Collector.perform (Collector.quiet (.uniform [⟨"work", "work.rb", 7⟩])) machine.collector
        (.flush ⟨0, 0⟩) = .ok (after, .flushed (.error (.encodingFailure (.sizeLimitExceeded 1)))) ∧
      Continues (.uniform [⟨"work", "work.rb", 7⟩]) machine.collector retriedFlush results ∧
      Continues (.uniform [⟨"work", "work.rb", 7⟩]) after retriedFlush results' ∧
      results.getLast?.map CallResult.reply = some (.flushed (.ok profile)) ∧
      profile.sampleCount = 1 ∧ profile.droppedCount = 2 ∧
      Agree (.uniform [⟨"work", "work.rb", 7⟩]) 0 0 retriedFlush results results' := by
  let host := Host.uniform [⟨"work", "work.rb", 7⟩]
  obtain ⟨history, machine, replayed, checked⟩ := exists_of_replay
    { sampleRate := 1, maxSamples := 1, maxProfileBytes := 1, compression := .none }
    crowdedAllocation
    (fun run => !run.2.collector.flushing &&
      (lastProfile? host run.2.collector retriedFlush).any (fun profile =>
        profile.sampleCount = 1 && profile.droppedCount = 2) &&
      (performed? host run.2.collector (.flush ⟨0, 0⟩)).any fun reached =>
        (Progress.replied reached.2).failure? = some (.sizeLimitExceeded 1) &&
          (continued? host reached.1 retriedFlush).isSome) (by decide +kernel)
  simp only [Bool.and_eq_true, Bool.not_eq_true'] at checked
  obtain ⟨⟨idle, exports⟩, fails⟩ := checked
  obtain ⟨profile, exported, counts⟩ := (Option.any_eq_true _ _).mp exports
  obtain ⟨results, continues, last_eq⟩ := exists_of_lastProfile? exported
  obtain ⟨⟨after, reply⟩, reached, goes_on⟩ := (Option.any_eq_true _ _).mp fails
  simp only [Bool.and_eq_true, decide_eq_true_eq] at counts goes_on
  cases Progress.failure?_eq_some goes_on.1
  obtain ⟨results', continued'⟩ := Option.isSome_iff_exists.mp goes_on.2
  have performed := perform_of_performed? reached
  have continues' := continues_of_continued? continued'
  obtain ⟨-, -, -, -, agree⟩ := @agree_of_failedFlush _ _ _ host host.stack ⟨0, 0⟩ _ after _
    (Run.of_replay replayed) idle (.refl _) performed fun _ same => by cases same
  exact ⟨history, machine, after, results, results', profile, replayed, performed, continues,
    continues', last_eq, counts.1, counts.2,
    (agree retriedFlush).2.1 results results' continues continues'⟩

/-! ## Where a failed flush shows

If a failed flush has interned many places, the places of a later object get larger ids than they
would have got without it.  The ids of places that are interned one after another are told first, so
that they need not be computed.
-/

namespace Tables

def line (number : Nat) : NamedPlace := ⟨"work", "", number.toUInt32⟩

def linePlace (number : Nat) : Place := ⟨⟨1⟩, .empty, number.toUInt32⟩

def linePlaces : Nat → InternSet Place
  | 0 => {}
  | count + 1 =>
      { slab := (linePlaces count).slab.insert ⟨linePlace count, 1⟩
        index := (linePlaces count).index.insert (linePlace count) (count + 1) }

/-- Tables in which the first lines of a function have been interned and nothing else. -/
def lines (count : Nat) : Tables where
  strings := ⟨{ slab.cells := #[some ⟨"work", count⟩], index := ⟨[("work", 1)], by decide⟩ }⟩
  functions := ⟨linePlaces count⟩

variable {count : Nat}

theorem slab_linePlaces (count : Nat) :
    (linePlaces count).slab.free = [] ∧ (linePlaces count).slab.cells.size = count := by
  induction count with
  | zero => exact ⟨rfl, rfl⟩
  | succ count ih => simp [linePlaces, Slab.insert, ih.1, ih.2]

theorem exists_of_mem_linePlaces {entry : Place × Nat}
    (listed : entry ∈ (linePlaces count).index.entries) :
    ∃ number < count, entry.1 = linePlace number := by
  induction count with
  | zero => cases listed
  | succ count ih =>
      obtain rfl | ⟨earlier, -⟩ := Index.mem_insert.mp listed
      · exact ⟨count, Nat.lt_succ_self _, rfl⟩
      · obtain ⟨number, below, same⟩ := ih earlier
        exact ⟨number, below.trans (Nat.lt_succ_self _), same⟩

theorem find?_lines (few : count < 4294967295) :
    (linePlaces count).find? (linePlace count) = none := by
  rw [Option.eq_none_iff_forall_ne_some]
  intro id found
  obtain ⟨number, below, same⟩ := exists_of_mem_linePlaces (Index.get?_eq_some_iff.mp found)
  have values_eq := congrArg UInt32.toNat (congrArg Place.line same)
  simp only [linePlace, Nat.toUInt32_eq, UInt32.toNat_ofNat'] at values_eq
  omega

theorem internPlace_lines (few : count < 4294967295) :
    (lines count).internPlace (line count) = (lines (count + 1), .ok ⟨count + 1⟩) := by
  have absent := find?_lines few
  have named : (lines count).strings.find? "work" = some ⟨1⟩ := by
    simp [StringTable.find?, lines, InternSet.find?, Index.get?]
  have missing : (lines count).functions.find? (lines count).strings (line count) = none := by
    have nameless : (lines count).strings.find? "" = some .empty := rfl
    simp only [FunctionTable.find?, line, named, nameless, Option.bind_eq_bind, Option.bind_some]
    exact congrArg (Option.map _) absent
  have retained : (lines count).strings.intern "work" = .ok ((lines (count + 1)).strings, ⟨1⟩) := by
    simp [StringTable.intern, lines, InternSet.intern, InternSet.find?, Index.get?,
      InternSet.retain, InternSet.get?, Slab.get?, Slab.put, InternSet.maxWord, few, Except.map]
  have nameless : (lines (count + 1)).strings.intern "" =
      .ok ((lines (count + 1)).strings, .empty) := rfl
  have added : (lines count).functions.set.intern ⟨⟨1⟩, .empty, count.toUInt32⟩ =
      .ok (linePlaces (count + 1), count + 1) := by
    have next_eq : (linePlaces count).slab.next = count := by
      simp [Slab.next, slab_linePlaces count]
    change (linePlaces count).intern (linePlace count) = _
    simp only [InternSet.intern, absent, InternSet.add, next_eq, InternSet.maxWord, few, if_true]
    rfl
  simp only [internPlace, missing, addPlace]
  simp only [line, retained, nameless, added]
  rfl

/-- Lines that are interned one after another get ids in order. -/
theorem internPlaces_lines (count more : Nat) (few : count + more < 4294967295) :
    (lines count).internPlaces ((List.range' count more).map line) =
      .ok (lines (count + more), (List.range' (count + 1) more).map (⟨·⟩)) := by
  induction more generalizing count with
  | zero => rfl
  | succ more ih =>
      have named : (line count).withName = line count := rfl
      rw [List.range'_succ, List.map_cons, internPlaces, named, internPlace_lines (by omega)]
      simp only [ih (count + 1) (by omega), Except.map, List.range'_succ, List.map_cons]
      rw [Nat.add_right_comm, Nat.add_assoc]

theorem internPlaces_empty (more : Nat) (few : more < 4294967294) :
    Tables.internPlaces {} ((List.range' 0 (more + 1)).map line) =
      .ok (lines (more + 1), (List.range' 1 (more + 1)).map (⟨·⟩)) := by
  have first : Tables.internPlace {} (line 0).withName = (lines 1, .ok ⟨1⟩) := by
    rfl
  rw [List.range'_succ, List.map_cons, internPlaces, first]
  simp only [internPlaces_lines 1 more (by omega), Except.map, List.range'_succ, List.map_cons]
  rw [Nat.add_comm 1 more]

end Tables

namespace Collector

/-- A collector whose one live object has been sampled in its first session. -/
def single (valid : ValidSettings) (tables : Tables) (sample : Sample) (owners : Nat)
    (flushing : Bool) : Collector where
  inventory := {
    store := {
      arena := { slab.cells := #[some ⟨sample, owners⟩], generations := #[0], size := 1 }
      live := [(⟨1⟩, ⟨0, 0⟩)]
      maxSamples := valid.settings.maxSamples }
    tables }
  settings := valid
  running := true
  sessionStart := some 0
  flushing

variable {valid : ValidSettings} {backtrace : Backtrace} {places : List NamedPlace}
  {tables : Tables} {ids : List LocationId} {host : Host} {cause : EncodeError}

/-- A flush keeps the ids of the places of its sample, also if it fails. -/
theorem perform_flush_single (clock : Clock) (symbolized : host.symbolize backtrace = .ok places)
    (sizeless : host.objectSize ⟨1⟩ = none)
    (interned : Tables.internPlaces {} places = .ok (tables, ids))
    (failed : encodeProfile tables []
      ((single valid {} (.new ⟨1⟩ [] backtrace) 1 false).exportOptions clock) = .error cause) :
    perform (quiet host) (single valid {} (.new ⟨1⟩ [] backtrace) 1 false) (.flush clock) =
      .ok (single valid tables ((Sample.new ⟨1⟩ [] backtrace).symbolized ids) 1 false,
        .flushed (.error (.encodingFailure cause))) := by
  let fresh := Sample.new ⟨1⟩ [] backtrace
  let cycle : Cycle := {
    snapshot := [⟨0, 0⟩]
    dropped := 0
    options := (single valid {} fresh 1 false).exportOptions clock }
  have begins : (single valid {} fresh 1 false).flush clock =
      .ok (single valid {} fresh.withoutBacktrace 2 true,
        .waiting (.symbolizing cycle ⟨0, 0⟩ backtrace [])) := rfl
  have measures : (single valid {} fresh.withoutBacktrace 2 true).resumeSymbolize cycle ⟨0, 0⟩
      backtrace [] (.ok places) = .ok (single valid tables (fresh.symbolized ids) 2 true,
        .waiting (.measuring cycle [] ⟨0, 0⟩ ⟨1⟩ [])) := by
    have tables_eq : (single valid {} fresh.withoutBacktrace 2 true).tables = {} := rfl
    simp only [resumeSymbolize, tables_eq, interned]
    rfl
  have ends : (single valid tables (fresh.symbolized ids) 2 true).finish cycle [] =
      .ok (single valid tables (fresh.symbolized ids) 1 false,
        .replied (.flushed (.error (.encodingFailure cause)))) := by
    have encoded : encodeProfile (single valid tables (fresh.symbolized ids) 2 true).tables []
        cycle.options = .error cause := failed
    simp only [finish, List.filterMap_nil, encoded]
    rfl
  have asked : host.answer (.symbolize backtrace) = .ok places := symbolized
  have sized : host.answer (.objectSize ⟨1⟩) = none := sizeless
  calc perform (quiet host) (single valid {} fresh 1 false) (.flush clock)
      = driven host ((single valid {} fresh.withoutBacktrace 2 true).resumeSymbolize cycle ⟨0, 0⟩
          backtrace [] (host.answer (.symbolize backtrace))) := by
        rw [perform_quiet, call, begins, driven_waiting]
        rfl
    _ = driven host ((single valid tables (fresh.symbolized ids) 2 true).resumeMeasure cycle []
          ⟨0, 0⟩ [] (host.answer (.objectSize ⟨1⟩))) := by
        rw [asked, measures, driven_waiting]
        rfl
    _ = driven host ((single valid tables (fresh.symbolized ids) 2 true).finish cycle []) := by
        rw [sized]
        rfl
    _ = _ := by rw [ends, driven_replied]

end Collector

/-- A host that takes every frame of a stack for another line; the first object has no size. -/
def Host.byLine : Host where
  stack := ⟨List.replicate 128 ⟨7⟩⟩
  symbolize backtrace := .ok ((List.range' 0 backtrace.frames.length).map Tables.line)
  objectSize identity := if identity = ⟨1⟩ then none else some 64

def Settings.limited (limit : Nat) : Settings :=
  { sampleRate := 1, maxProfileBytes := limit, compression := .none }

def deepAllocation : List Move :=
  [.call (.start 0), .answer .byLine, .call (.allocate ⟨1⟩ [] 0), .answer .byLine]

def shallowFlush : List (Call × Backtrace) :=
  [(.release ⟨1⟩, {}), (.configure (.limited 94), {}), (.allocate ⟨2⟩ [] 0, ⟨[⟨7⟩]⟩),
    (.flush ⟨0, 0⟩, {})]

/-- After a failed flush another one can exceed its limit that would not have done so otherwise. -/
theorem exceeds_of_shallowFlush :
    ∃ history machine after results results' profile,
      replay (.limited 1) deepAllocation = some (history, machine) ∧
      machine.collector.flushing = false ∧
      Collector.perform (Collector.quiet .byLine) machine.collector (.flush ⟨0, 0⟩) =
        .ok (after, .flushed (.error (.encodingFailure (.sizeLimitExceeded 1)))) ∧
      Continues .byLine machine.collector shallowFlush results ∧
      Continues .byLine after shallowFlush results' ∧
      results.getLast?.map CallResult.reply = some (.flushed (.ok profile)) ∧
      results'.getLast?.map CallResult.reply =
        some (.flushed (.error (.encodingFailure (.sizeLimitExceeded 94)))) := by
  have rate : SampleRate.ofFraction? 1 = some .always := by decide +kernel
  let valid : ValidSettings := ⟨.always, .limited 1⟩
  have checked : (Settings.limited 1).validate = .ok valid := by
    simp [Settings.validate, Settings.limited, rate, TagMap.hasEmptyKey, TagMap.empty, valid]
  let deep : Backtrace := ⟨List.replicate 128 ⟨7⟩⟩
  -- To evaluate how 128 places are interned is slow, so what the flush leaves is in closed form.
  let before := Collector.single valid {} (.new ⟨1⟩ [] deep) 1 false
  let ids : List LocationId := (List.range' 1 128).map (⟨·⟩)
  let after := Collector.single valid (.lines 128) ((Sample.new ⟨1⟩ [] deep).symbolized ids) 1 false
  obtain ⟨history, replayed⟩ : ∃ history,
      replay (.limited 1) deepAllocation = some (history, { collector := before }) := by
    simp only [replay, Collector.create, checked]
    exact ⟨_, rfl⟩
  have failed : encodeProfile (.lines 128) [] (before.exportOptions ⟨0, 0⟩) =
      .error (.sizeLimitExceeded 1) := by decide +kernel
  have symbolized : Host.byLine.symbolize deep =
      .ok ((List.range' 0 (127 + 1)).map Tables.line) := rfl
  have performed : Collector.perform (Collector.quiet .byLine) before (.flush ⟨0, 0⟩) =
      .ok (after, .flushed (.error (.encodingFailure (.sizeLimitExceeded 1)))) :=
    Collector.perform_flush_single ⟨0, 0⟩ symbolized rfl
      (Tables.internPlaces_empty 127 (by decide)) failed
  have exports : (lastProfile? .byLine before shallowFlush).isSome = true := by decide +kernel
  have exceeds : lastFailure? .byLine after shallowFlush = some (.sizeLimitExceeded 94) := by
    decide +kernel
  obtain ⟨profile, exported⟩ := Option.isSome_iff_exists.mp exports
  obtain ⟨results, continues, last_eq⟩ := exists_of_lastProfile? exported
  obtain ⟨results', continues', last_eq'⟩ := exists_of_lastFailure? exceeds
  exact ⟨history, { collector := before }, after, results, results', profile, replayed,
    rfl, performed, continues, continues', last_eq, last_eq'⟩

end HeapSampler
