import Mathlib
import HeapSampler.Proofs.Collector.Runs
import HeapSampler.Proofs.Export.Success
import HeapSampler.Proofs.Intern.Exhaustion
import HeapSampler.Proofs.Store.Preserves

/-!
# No call finds the books broken

On every run handles that are held lead somewhere, references that are held can be given back, and
what is exported is interned.  So all that can end a run is that a count, the ids or the cells have
come to their end, and a flush can fail for nothing but the size of its profile.
-/

namespace HeapSampler

/-- An id of a sample or of a place led nowhere. -/
def EncodeError.IsUnknown : EncodeError → Prop
  | unknownLocation _ | unknownString _ => True
  | outOfMemory | sizeLimitExceeded _ | storageFull => False

namespace Inventory.Balanced

variable {inventory : Inventory} {leaving held : List Handle} {spare : List StringId}

/-- The samples of a balanced inventory refer to what is interned. -/
theorem resolves (balanced : inventory.Balanced leaving held spare) (handles : List Handle) :
    inventory.tables.Resolves (handles.filterMap inventory.store.sample?) where
  tag own listed tag tag_listed := by
    obtain ⟨handle, -, found⟩ := List.mem_filterMap.mp listed
    exact balanced.exists_tag found tag_listed
  place own listed id id_listed := by
    obtain ⟨handle, -, found⟩ := List.mem_filterMap.mp listed
    exact balanced.exists_place found id_listed

end Inventory.Balanced

/-- References that lead somewhere are not what an export fails for. -/
theorem known_of_encodeProfile {tables : Tables} {samples : List Sample} {options : ExportOptions}
    {cause : EncodeError} (resolves : tables.Resolves samples)
    (failed : encodeProfile tables samples options = .error cause) : ¬cause.IsUnknown := by
  unfold encodeProfile at failed
  rcases Draft.ofSamples_cases resolves with ⟨draft, drafted, -⟩ | ⟨drafted, -⟩
  · simp only [drafted, bind, Except.bind] at failed
    split at failed
    · cases failed
    · cases failed
      exact id
  · simp only [drafted, bind, Except.bind] at failed
    cases failed
    exact id

namespace Collector

variable {collector after : Collector} {cycle : Cycle} {included rest held : List Handle}
  {progress : Progress} {breach : Breach}

/-! ## Flushes -/

theorem exists_of_finish (balanced : collector.inventory.Balanced [] cycle.snapshot [])
    (included : List Handle) : ∃ reached, collector.finish cycle included = .ok reached := by
  rw [← List.append_nil cycle.snapshot] at balanced
  obtain ⟨inventory, released, -⟩ := balanced.releaseSnapshot
  unfold finish
  simp only [released, bind, Except.bind, pure, Except.pure]
  split
  · exact ⟨_, rfl⟩
  · exact ⟨_, rfl⟩

theorem exists_of_measureFrom (balanced : collector.inventory.Balanced [] cycle.snapshot [])
    (included rest : List Handle) :
    ∃ reached, collector.measureFrom cycle included rest = .ok reached := by
  induction rest with
  | nil => exact exists_of_finish balanced _
  | cons handle rest ih =>
      unfold measureFrom
      split
      · exact ⟨_, rfl⟩
      · exact ih

theorem exists_of_symbolizeFrom (balanced : collector.inventory.Balanced [] cycle.snapshot [])
    (owned : rest ⊆ cycle.snapshot) :
    ∃ reached, collector.symbolizeFrom cycle rest = .ok reached := by
  induction rest with
  | nil => exact exists_of_measureFrom balanced _ _
  | cons handle rest ih =>
      obtain ⟨listed, others⟩ := List.cons_subset.mp owned
      obtain ⟨sample, (found : collector.store.sample? handle = _)⟩ :=
        balanced.exists_sample_iff.mpr (List.mem_append_right _ listed)
      unfold symbolizeFrom
      simp only [found]
      split
      · exact ih others
      · split
        · exact ih others
        · obtain ⟨arena, (modified : collector.store.modify _ _ = _), -⟩ :=
            balanced.touch Sample.withoutBacktrace found rfl rfl (.inr rfl) rfl rfl
          simp only [modified, bind, Except.bind, pure, Except.pure]
          exact ⟨_, rfl⟩

theorem symbolizeFrom_ne_error (balanced : collector.inventory.Balanced [] cycle.snapshot [])
    (owned : rest ⊆ cycle.snapshot) : collector.symbolizeFrom cycle rest ≠ .error breach := by
  obtain ⟨reached, went⟩ := exists_of_symbolizeFrom balanced owned
  rw [went]
  exact nofun

theorem exists_of_flush {clock : Clock}
    (balanced : collector.flushing = false → collector.inventory.Balanced [] [] []) :
    ∃ reached, collector.flush clock = .ok reached := by
  cases flushing : collector.flushing with
  | true => exact ⟨_, if_pos flushing⟩
  | false =>
      obtain ⟨arena, begun, -, balanced'⟩ := flush_of_idle flushing (balanced flushing) clock
      rw [begun]
      exact exists_of_symbolizeFrom balanced' (List.Subset.refl _)

/-- An answer with places can find the tables at their end; nothing else of a flush can fail. -/
theorem exhausted_of_resumeSymbolize {handle : Handle} {backtrace : Backtrace}
    {answer : Except SymbolizationError (List NamedPlace)}
    (balanced : collector.inventory.Balanced [] cycle.snapshot [])
    (sound : Suspended.Sound collector.inventory (.symbolizing cycle handle backtrace rest))
    (failed : collector.resumeSymbolize cycle handle backtrace rest answer = .error breach) :
    breach.IsExhaustion := by
  obtain ⟨-, remains, sample, found, unsymbolized⟩ := sound
  have later : rest ⊆ cycle.snapshot := ((List.suffix_cons handle rest).trans remains).subset
  cases answer with
  | error cause =>
      obtain ⟨arena, resumed, -, balanced'⟩ :=
        resumeSymbolize_of_error balanced found backtrace rest cause
      exact absurd (resumed.symm.trans failed) (symbolizeFrom_ne_error balanced' later)
  | ok places =>
      rcases resumeSymbolize_of_places balanced found unsymbolized backtrace rest places with
        ⟨cause, interned, refused⟩ | ⟨tables, locations, arena, -, resumed, -, balanced'⟩
      · cases refused.symm.trans failed
        exact balanced.tables.exhausted_of_places interned
      · exact absurd (resumed.symm.trans failed) (symbolizeFrom_ne_error balanced' later)

theorem exists_of_resumeMeasure {handle : Handle} {answer : Option UInt64}
    (balanced : collector.inventory.Balanced [] cycle.snapshot []) :
    ∃ reached, collector.resumeMeasure cycle included handle rest answer = .ok reached := by
  rcases resumeMeasure_cases balanced handle included rest answer with
    resumed | ⟨sample, size, arena, -, -, -, resumed, -, balanced'⟩
  · rw [resumed]
    exact exists_of_measureFrom balanced _ _
  · rw [resumed]
    exact exists_of_measureFrom balanced' _ _

/-! ## Other calls -/

theorem exhausted_of_resumeCapture {identity : Identity} {tags : List (String × String)}
    {backtrace : Backtrace} (balanced : collector.inventory.Balanced [] held [])
    (failed : collector.resumeCapture identity tags backtrace = .error breach) :
    breach.IsExhaustion := by
  unfold resumeCapture at failed
  split at failed
  · cases failed
  · dsimp only at failed
    split at failed
    · rename_i cause interned
      cases failed
      exact balanced.tables.exhausted_of_tags interned
    · rename_i tables ids interned
      obtain ⟨counted, -, -⟩ := balanced.tables.intern_tags interned
      have spared : Inventory.Balanced { collector.inventory with tables } [] held
          (ids.flatMap Tag.texts) := { balanced with tables := counted }
      simp only [bind, Except.bind] at failed
      split at failed
      · rename_i own recorded
        cases failed
        exact spared.exhausted_of_allocation (.of_eq (List.append_nil _).symm) recorded
      · cases failed

/-- No call fails before it waits for an answer or replies. -/
theorem exists_of_call {call : Call} (balanced : collector.inventory.Balanced [] held [])
    (idle : collector.flushing = false → held = []) :
    ∃ reached, collector.call call = .ok reached := by
  cases call with
  | allocate identity tags draw => exact ⟨_, rfl⟩
  | release identity =>
      obtain ⟨inventory, released, -⟩ := balanced.recordRelease identity
      simp only [Collector.call, release, released, bind, Except.bind, pure, Except.pure,
        Except.map]
      exact ⟨_, rfl⟩
  | relocate old new =>
      obtain ⟨inventory, relocated, -⟩ := balanced.recordRelocation old new
      simp only [Collector.call, relocate, relocated, bind, Except.bind, pure, Except.pure,
        Except.map]
      exact ⟨_, rfl⟩
  | start instant =>
      obtain ⟨cleared, cleared_eq, -⟩ := balanced.clear
      simp only [Collector.call, start, cleared_eq, bind, Except.bind, pure, Except.pure]
      split
      · exact ⟨_, rfl⟩
      · exact ⟨_, rfl⟩
  | stop => exact ⟨_, rfl⟩
  | configure settings => exact ⟨_, rfl⟩
  | setGlobalTags tags => exact ⟨_, rfl⟩
  | flush clock =>
      refine exists_of_flush fun none_under_way => ?_
      rw [idle none_under_way] at balanced
      exact balanced
  | retire => exact ⟨_, rfl⟩

/-- An answer can want a reference or a cell, and nothing else. -/
theorem exhausted_of_resume {suspended : Suspended} {answer : suspended.request.Answer}
    (balanced : collector.inventory.Balanced [] held [])
    (owned : ∀ cycle, suspended.cycle? = some cycle → held = cycle.snapshot)
    (sound : suspended.Sound collector.inventory)
    (failed : collector.resume suspended answer = .error breach) : breach.IsExhaustion := by
  cases suspended with
  | capturing identity tags =>
      cases resumed : collector.resumeCapture identity tags answer with
      | error own =>
          simp only [resume, resumed, Except.map, Except.error.injEq] at failed
          rw [← failed]
          exact exhausted_of_resumeCapture balanced resumed
      | ok next => simp [resume, resumed, Except.map] at failed
  | symbolizing cycle handle backtrace rest =>
      rw [owned cycle rfl] at balanced
      exact exhausted_of_resumeSymbolize balanced sound failed
  | measuring cycle included handle identity rest =>
      rw [owned cycle rfl] at balanced
      obtain ⟨reached, went⟩ := exists_of_resumeMeasure balanced
      cases failed.symm.trans went
  | subscribing => cases failed
  | unsubscribing => cases failed

/-- What a flush exports is interned. -/
theorem Finishes.known {cause : EncodeError}
    (finished : Finishes collector cycle included after
      (.replied (.flushed (.error (.encodingFailure cause)))))
    (balanced : collector.inventory.Balanced [] cycle.snapshot []) : ¬cause.IsUnknown := by
  cases finished with
  | failed encoded released => exact known_of_encodeProfile (balanced.resolves included) encoded

/-- However a stretch of a flush ends, it does not find an unknown id. -/
theorem Carries.known {live : List (Identity × Handle)} {pending : Nat} {cause : EncodeError}
    (carries : Carries cycle included live pending after
      (.replied (.flushed (.error (.encodingFailure cause))))) : ¬cause.IsUnknown := by
  obtain ⟨-, -, -, ⟨encoding, skipped, balanced, -, finished⟩, -⟩ := carries
  exact finished.known balanced

end Collector

namespace Machine

variable {machine after : Machine} {move : Move} {progress : Progress} {breach : Breach}

def breach? (machine : Machine) : Move → Option Breach
  | .call call =>
      match machine.collector.call call with
      | .ok _ => none
      | .error breach => some breach
  | .answer host =>
      match machine.waiting with
      | [] => none
      | suspended :: _ =>
          match machine.collector.resume suspended (host.answer suspended.request) with
          | .ok _ => none
          | .error breach => some breach
  | .rehash _ => none

/-- What a move can find wanting is room. -/
theorem Sound.exhausted (sound : machine.Sound) (broken : machine.breach? move = some breach) :
    breach.IsExhaustion := by
  cases move with
  | call call =>
      obtain ⟨reached, went⟩ : ∃ reached, machine.collector.call call = .ok reached := by
        refine Collector.exists_of_call sound.balanced fun idle => ?_
        rw [held, sound.cycles_eq_nil idle]
        rfl
      simp [breach?, went] at broken
  | answer host =>
      cases waiting : machine.waiting with
      | nil => simp [breach?, waiting] at broken
      | cons suspended outer =>
          have listed : suspended ∈ machine.waiting := waiting ▸ List.mem_cons_self
          cases went : machine.collector.resume suspended (host.answer suspended.request) with
          | ok reached => simp [breach?, waiting, went] at broken
          | error own =>
              simp only [breach?, waiting, went, Option.some.injEq] at broken
              rw [← broken]
              exact Collector.exhausted_of_resume sound.balanced
                (fun cycle inside => sound.held_eq listed inside) (sound.waiting suspended listed)
                went
  | rehash live => cases broken

/-- No move ends in an export that misses an id. -/
theorem Sound.known {cause : EncodeError} (sound : machine.Sound)
    (stepped : machine.step? move =
      some (.replied (.flushed (.error (.encodingFailure cause))), after)) :
    ¬cause.IsUnknown := by
  cases sound.passage stepped with
  | begins move_eq idle cycles_eq went waiting_eq => exact (sound.carries_of_flush idle went).known
  | proceeds move_eq before_eq inside cycles_eq flushing went waiting_eq =>
      exact (sound.carries_of_resume before_eq inside flushing went).known
  | passes foreign passed outside cycles_eq waiting_subset => cases outside

end Machine

/--
Whatever has been called and answered, the next call or answer does not find the books broken: it
goes through unless there is no room for another reference or another sample, and if it ends a
flush without a profile, then not because an id is unknown.
-/
theorem unbroken_of_run {settings : Settings} {history : List Moment} {machine : Machine}
    (run : Run settings history machine) (move : Move) :
    (∀ breach, machine.breach? move = some breach → breach.IsExhaustion) ∧
      ∀ cause after,
        machine.step? move =
          some (.replied (.flushed (.error (.encodingFailure cause))), after) →
        ¬cause.IsUnknown :=
  ⟨fun _ broken => run.sound.exhausted broken, fun _ _ stepped => run.sound.known stepped⟩

/-- An object is moved and released while a flush with a limit of one byte has it symbolized. -/
def movedWhileSymbolized : List Move :=
  let answer := Move.answer (.uniform [⟨"work", "work.rb", 7⟩])
  [.call (.start 0), answer, .call (.allocate ⟨1⟩ [("kind", "page")] 0), answer,
    .call (.flush ⟨0, 0⟩), .call (.relocate ⟨1⟩ ⟨2⟩), .call (.release ⟨2⟩)]

theorem unbroken_of_movedWhileSymbolized :
    ∃ history machine,
      replay { sampleRate := 1, maxProfileBytes := 1, compression := .none } movedWhileSymbolized =
        some (history, machine) ∧
      ∃ cause after,
        machine.step? (.answer (.uniform [⟨"work", "work.rb", 7⟩])) =
          some (.replied (.flushed (.error (.encodingFailure cause))), after) ∧
        ¬cause.IsUnknown := by
  obtain ⟨history, machine, replayed, checked⟩ := exists_of_replay
    { sampleRate := 1, maxProfileBytes := 1, compression := .none } movedWhileSymbolized
    (fun run => (run.2.step? (.answer (.uniform [⟨"work", "work.rb", 7⟩]))).any
      fun reached => reached.1.failure?.isSome) (by decide +kernel)
  obtain ⟨⟨progress, after⟩, stepped, fails⟩ := (Option.any_eq_true _ _).mp checked
  obtain ⟨cause, found⟩ := Option.isSome_iff_exists.mp fails
  obtain rfl := Progress.failure?_eq_some found
  exact ⟨history, machine, replayed, cause, after, stepped,
    (unbroken_of_run (Run.of_replay replayed) _).2 cause after stepped⟩

end HeapSampler
