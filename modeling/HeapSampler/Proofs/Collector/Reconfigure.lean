import Mathlib
import HeapSampler.Proofs.Collector.Captures

/-!
# The settings in force

A collector keeps the settings that were checked, the rate that was made of them and the bound of
its store, and two calls replace these.  All three agree at every moment, whatever is called while
captures and flushes wait: settings that are proposed come into force if they are valid and then
nothing but they and the bound changes, and otherwise nothing changes at all.
-/

namespace HeapSampler

def Call.proposed? (call : Call) (current : Settings) : Option Settings :=
  match call with
  | .configure settings => some settings
  | .setGlobalTags tags => some { current with globalTags := tags }
  | .allocate .. | .release _ | .relocate .. | .start _ | .stop | .flush _ | .retire => none

namespace Collector

/--
The settings are valid, the rate in use was made of them, and their bound is that of the store.
-/
structure Governed (collector : Collector) : Prop where
  valid : collector.settings.settings.validate = .ok collector.settings
  inForce : collector.InForce

/-- Only the settings and the bound of the store may have changed. -/
structure Undisturbed (before after : Collector) : Prop where
  /-- Every handle leads to the same sample with the same tags and the same owners. -/
  arena_eq : after.store.arena = before.store.arena
  live_eq : after.store.live = before.store.live
  dropped_eq : after.store.dropped = before.store.dropped
  tables_eq : after.tables = before.tables
  running_eq : after.running = before.running
  sessionStart_eq : after.sessionStart = before.sessionStart
  flushing_eq : after.flushing = before.flushing

inductive Settles (before : Collector) (proposed : Settings) :
    Except CollectorError Unit → Collector → Prop where
  | accepted {valid : ValidSettings} {after : Collector} (checked : proposed.validate = .ok valid)
      (settings_eq : after.settings = valid) (governed : after.Governed)
      (undisturbed : before.Undisturbed after) : before.Settles proposed (.ok ()) after
  | refused {cause : ConfigError} (checked : proposed.validate = .error cause) :
      before.Settles proposed (.error (.configuration cause)) before

end Collector

/-! ## Checking -/

/-- Of settings whose tags are replaced, only the tags have to be checked again. -/
theorem validate_withGlobalTags {settings : Settings} {valid : ValidSettings}
    (checked : settings.validate = .ok valid) (tags : TagMap) :
    { settings with globalTags := tags }.validate =
      if tags.hasEmptyKey then .error .emptyTagKey else .ok (valid.withGlobalTags tags) := by
  unfold Settings.validate at checked ⊢
  dsimp only
  split at checked
  · cases checked
  · split_ifs at checked with zero_samples zero_bytes empty_key
    cases checked
    rw [if_neg zero_samples, if_neg zero_bytes]
    rfl

namespace Collector

variable {collector after : Collector} {progress : Progress}

theorem settles_of_configure (settings : Settings) :
    collector.Settles settings (collector.configure settings).2
      (collector.configure settings).1 := by
  unfold configure
  split
  · rename_i cause checked
    exact .refused checked
  · rename_i valid checked
    have settings_eq := settings_of_validate checked
    apply Settles.accepted checked
    · rfl
    · constructor
      · change valid.settings.validate = .ok valid
        rw [settings_eq, checked]
      · change settings.maxSamples = valid.settings.maxSamples
        rw [settings_eq]
    · exact ⟨rfl, rfl, rfl, rfl, rfl, rfl, rfl⟩

theorem Governed.settles_of_setGlobalTags (governed : collector.Governed) (tags : TagMap) :
    collector.Settles { collector.settings.settings with globalTags := tags }
      (collector.setGlobalTags tags).2 (collector.setGlobalTags tags).1 := by
  have checked := validate_withGlobalTags governed.valid tags
  unfold setGlobalTags
  split
  · rename_i empty_key
    rw [if_pos empty_key] at checked
    exact .refused checked
  · rename_i named
    rw [if_neg named] at checked
    apply Settles.accepted checked
    · rfl
    · exact ⟨checked, governed.inForce⟩
    · exact ⟨rfl, rfl, rfl, rfl, rfl, rfl, rfl⟩

/-- A call that proposes settings returns at once. -/
theorem Governed.exists_settled (governed : collector.Governed) {call : Call} {proposed : Settings}
    (proposes : call.proposed? collector.settings.settings = some proposed) :
    ∃ result after, collector.call call = .ok (after, .replied (.settled result)) ∧
      collector.Settles proposed result after := by
  cases call with
  | configure own =>
      cases proposes
      exact ⟨_, _, rfl, settles_of_configure proposed⟩
  | setGlobalTags tags =>
      cases proposes
      exact ⟨_, _, rfl, governed.settles_of_setGlobalTags tags⟩
  | allocate identity tags draw => cases proposes
  | release identity => cases proposes
  | relocate old new => cases proposes
  | start instant => cases proposes
  | stop => cases proposes
  | flush clock => cases proposes
  | retire => cases proposes

/-! ## Everything else -/

theorem settings_of_resumeCapture {identity : Identity} {tags : List (String × String)}
    {backtrace : Backtrace}
    (resumed : collector.resumeCapture identity tags backtrace = .ok after) :
    after.settings = collector.settings := by
  simp only [resumeCapture, bind, Except.bind, pure, Except.pure] at resumed
  split at resumed
  · cases resumed
    rfl
  · split at resumed
    · cases resumed
    · split at resumed
      · cases resumed
      · cases resumed
        rfl

theorem settings_of_halt {refusal : Reply}
    (went : (if collector.running then
        ({ collector with running := false }, Progress.waiting .unsubscribing)
      else (collector, .replied refusal)) = (after, progress)) :
    after.settings = collector.settings := by
  split at went
  · cases went
    rfl
  · cases went
    rfl

/-- Calls that propose nothing and do not begin a flush leave the settings alone. -/
theorem settings_of_call {call : Call}
    (silent : call.proposed? collector.settings.settings = none)
    (passing : ∀ clock, call = .flush clock → collector.flushing = true)
    (went : collector.call call = .ok (after, progress)) : after.settings = collector.settings := by
  cases call with
  | configure settings => cases silent
  | setGlobalTags tags => cases silent
  | allocate identity tags draw =>
      simp only [Collector.call, allocate, Except.ok.injEq] at went
      split at went
      · cases went
        rfl
      · split at went
        · cases went
          rfl
        · cases went
          rfl
  | release identity =>
      simp only [Collector.call, release, bind, Except.bind, pure, Except.pure, Except.map] at went
      cases released : collector.inventory.recordRelease identity with
      | error breach => simp [released] at went
      | ok inventory =>
          simp only [released, Except.ok.injEq, Prod.mk.injEq] at went
          rw [← went.1]
  | relocate old new =>
      simp only [Collector.call, relocate, bind, Except.bind, pure, Except.pure, Except.map] at went
      cases relocated : collector.inventory.recordRelocation old new with
      | error breach => simp [relocated] at went
      | ok inventory =>
          simp only [relocated, Except.ok.injEq, Prod.mk.injEq] at went
          rw [← went.1]
  | start instant =>
      simp only [Collector.call, start, bind, Except.bind, pure, Except.pure] at went
      split at went
      · cases went
        rfl
      · cases cleared : collector.inventory.clear with
        | error breach => simp [cleared] at went
        | ok inventory =>
            simp only [cleared, Except.ok.injEq, Prod.mk.injEq] at went
            rw [← went.1]
  | stop => exact settings_of_halt (Except.ok.inj went)
  | retire => exact settings_of_halt (Except.ok.inj went)
  | flush clock =>
      simp only [Collector.call, flush, passing clock rfl, if_true, Except.ok.injEq,
        Prod.mk.injEq] at went
      rw [← went.1]

end Collector

variable {settings : Settings} {history : List Moment} {machine after : Machine} {move : Move}
  {progress : Progress}

def Move.Proposes (move : Move) : Prop :=
  ∃ call, move = .call call ∧ ∀ current, call.proposed? current ≠ none

namespace Machine

/-- No other move touches the settings in force. -/
theorem Sound.settings_of_step (sound : machine.Sound) (silent : ¬move.Proposes)
    (stepped : machine.step? move = some (progress, after)) :
    after.collector.settings = machine.collector.settings := by
  cases sound.passage stepped with
  | begins move_eq idle cycles_eq went waiting_eq =>
      exact (Collector.framed_of_flush idle (sound.balanced_idle idle) went).settings_eq
  | proceeds move_eq before_eq inside cycles_eq flushing went waiting_eq =>
      rename_i host suspended cycle outer
      have listed : suspended ∈ machine.waiting := before_eq ▸ List.mem_cons_self
      have framed := Collector.framed_of_resume inside (sound.balanced_underway listed inside)
        (sound.waiting suspended listed) went
      exact framed.settings_eq
  | passes foreign passed outside cycles_eq waiting_subset =>
      cases foreign with
      | @call call passing =>
          have unproposed : call.proposed? machine.collector.settings.settings = none := by
            cases call with
            | configure settings => exact absurd ⟨_, rfl, fun _ none_eq => by cases none_eq⟩ silent
            | setGlobalTags tags => exact absurd ⟨_, rfl, fun _ none_eq => by cases none_eq⟩ silent
            | _ => rfl
          exact Collector.settings_of_call unproposed passing (step?_call stepped).1
      | answer waiting outside =>
          obtain ⟨own, rest, waiting', went, -⟩ := step?_answer stepped
          cases waiting.symm.trans waiting'
          rcases Collector.resume_outside outside went with
            ⟨identity, tags, rfl, resumed, -⟩ | ⟨-, after_eq, -⟩
          · exact Collector.settings_of_resumeCapture resumed
          · rw [after_eq]
      | rehash =>
          obtain ⟨-, -, rfl⟩ := step?_rehash stepped
          rfl

/-- Settings that are proposed are settled at once, whatever waits. -/
theorem exists_settled (governed : machine.collector.Governed) {call : Call} {proposed : Settings}
    (proposes : call.proposed? machine.collector.settings.settings = some proposed) :
    ∃ result after, machine.step? (.call call) = some (.replied (.settled result), after) ∧
      after.waiting = machine.waiting ∧
      machine.collector.Settles proposed result after.collector := by
  obtain ⟨result, collector, went, settles⟩ := governed.exists_settled proposes
  refine ⟨result, { collector, waiting := machine.waiting }, ?_, rfl, settles⟩
  simp only [step?, went]
  rfl

end Machine

namespace Collector.Settles

variable {collector next : Collector} {proposed : Settings} {result : Except CollectorError Unit}

theorem governed (settles : collector.Settles proposed result next)
    (governed : collector.Governed) : next.Governed := by
  cases settles with
  | accepted checked settings_eq next_governed undisturbed => exact next_governed
  | refused checked => exact governed

theorem of_invalid (settles : collector.Settles proposed result next) {cause : ConfigError}
    (invalid : proposed.validate = .error cause) :
    result = .error (.configuration cause) ∧ next = collector := by
  cases settles with
  | accepted checked settings_eq governed undisturbed => cases checked.symm.trans invalid
  | refused checked =>
      cases checked.symm.trans invalid
      exact ⟨rfl, rfl⟩

theorem of_valid (settles : collector.Settles proposed result next) {valid : ValidSettings}
    (checked : proposed.validate = .ok valid) :
    result = .ok () ∧ next.settings = valid ∧ next.Governed ∧ collector.Undisturbed next := by
  cases settles with
  | accepted checked' settings_eq governed undisturbed =>
      cases checked'.symm.trans checked
      exact ⟨rfl, settings_eq, governed, undisturbed⟩
  | refused invalid => cases invalid.symm.trans checked

end Collector.Settles

theorem Collector.governed_of_create {collector : Collector}
    (created : Collector.create settings = .ok collector) : collector.Governed := by
  unfold create at created
  split at created
  · rename_i valid checked
    cases created
    constructor
    · change valid.settings.validate = .ok valid
      rw [settings_of_validate checked, checked]
    · change settings.maxSamples = valid.settings.maxSamples
      rw [settings_of_validate checked]
  · cases created

theorem governed_of_run (run : Run settings history machine) : machine.collector.Governed := by
  induction run with
  | created created => exact Collector.governed_of_create created
  | moved run stepped ih =>
      rename_i history machine after move progress
      by_cases proposes : move.Proposes
      · obtain ⟨call, rfl, proposes⟩ := proposes
        obtain ⟨proposed, proposed_eq⟩ := Option.ne_none_iff_exists'.mp (proposes _)
        obtain ⟨result, next, settled, -, settles⟩ := Machine.exists_settled ih proposed_eq
        cases settled.symm.trans stepped
        exact settles.governed ih
      · have inForce := inForce_of_run (.moved run stepped)
        have settings_eq := run.sound.settings_of_step proposes stepped
        refine ⟨?_, inForce⟩
        rw [settings_eq]
        exact ih.valid

/-- At every moment of every run the settings in force are valid, the rate in use is the one that
was made of them, and the store has their bound.  Settings that are proposed are settled at once, be
it in the middle of a capture or a flush: valid ones come into force and leave all else as it is,
and others leave everything as it is.  No other move touches the settings. -/
theorem settled_of_run (run : Run settings history machine) :
    machine.collector.Governed ∧
      (∀ call proposed, call.proposed? machine.collector.settings.settings = some proposed →
        ∃ result after, machine.step? (.call call) = some (.replied (.settled result), after) ∧
          after.waiting = machine.waiting ∧
          machine.collector.Settles proposed result after.collector) ∧
      ∀ move progress after, ¬move.Proposes → machine.step? move = some (progress, after) →
        after.collector.settings = machine.collector.settings := by
  have governed := governed_of_run run
  refine ⟨governed, fun call proposed proposes => ?_, fun move progress after silent stepped => ?_⟩
  · exact Machine.exists_settled governed proposes
  · exact run.sound.settings_of_step silent stepped

/-- Two objects are live, and a flush waits for the places of one of them. -/
def waitingForPlaces : List Move :=
  let answer := Move.answer (.uniform [⟨"work", "work.rb", 7⟩])
  [.call (.start 0), answer, .call (.allocate ⟨1⟩ [("job", "mail")] 0), answer,
    .call (.allocate ⟨2⟩ [] 0), answer, .call (.flush ⟨0, 0⟩)]

/-- In the middle of a flush a bound of zero and a tag without a key are refused, and a bound below
the number of live objects is accepted. -/
theorem settled_of_waitingForPlaces :
    ∃ history machine after, replay { sampleRate := 1 } waitingForPlaces = some (history, machine) ∧
      machine.collector.flushing = true ∧ machine.collector.Governed ∧
      machine.step? (.call (.configure { sampleRate := 1, maxSamples := 0 })) =
        some (.replied (.settled (.error (.configuration .zeroMaxSamples))), machine) ∧
      machine.step? (.call (.setGlobalTags (.ofList [("", "mail")]))) =
        some (.replied (.settled (.error (.configuration .emptyTagKey))), machine) ∧
      machine.step? (.call (.configure { sampleRate := 1, maxSamples := 1 })) =
        some (.replied (.settled (.ok ())), after) ∧
      machine.collector.Undisturbed after.collector ∧ after.collector.Governed ∧
      after.collector.store.liveCount = 2 ∧ after.collector.store.maxSamples = 1 := by
  obtain ⟨history, machine, replayed, checked⟩ := exists_of_replay { sampleRate := 1 }
    waitingForPlaces
    (fun run => run.2.collector.flushing && decide (run.2.collector.store.liveCount = 2))
    (by decide +kernel)
  rw [Bool.and_eq_true, decide_eq_true_eq] at checked
  obtain ⟨flushing, two_live⟩ := checked
  obtain ⟨governed, settled, -⟩ := settled_of_run (Run.of_replay replayed)
  have always : SampleRate.ofFraction? 1 = some .always := by decide +kernel
  have boundless : { sampleRate := 1, maxSamples := 0 : Settings }.validate =
      .error .zeroMaxSamples := by simp [Settings.validate, always]
  have keyless := validate_withGlobalTags governed.valid (.ofList [("", "mail")])
  rw [if_pos (by decide +kernel)] at keyless
  have lower : { sampleRate := 1, maxSamples := 1 : Settings }.validate =
      .ok ⟨.always, { sampleRate := 1, maxSamples := 1 }⟩ := by
    simp [Settings.validate, always, defaultMaxProfileBytes, TagMap.empty, TagMap.hasEmptyKey]
  have refused {call : Call} {proposed : Settings} {cause : ConfigError}
      (proposes : call.proposed? machine.collector.settings.settings = some proposed)
      (invalid : proposed.validate = .error cause) :
      machine.step? (.call call) =
        some (.replied (.settled (.error (.configuration cause))), machine) := by
    obtain ⟨result, other, stepped, waiting_eq, settles⟩ := settled call proposed proposes
    obtain ⟨rfl, collector_eq⟩ := settles.of_invalid invalid
    have same : other = machine := by
      cases other
      cases collector_eq
      cases waiting_eq
      rfl
    exact same ▸ stepped
  obtain ⟨result, after, stepped, waiting_eq, settles⟩ :=
    settled (.configure { sampleRate := 1, maxSamples := 1 }) _ rfl
  obtain ⟨rfl, settings_eq, after_governed, undisturbed⟩ := settles.of_valid lower
  refine ⟨history, machine, after, replayed, flushing, governed, refused rfl boundless,
    refused rfl keyless, stepped, undisturbed, after_governed, ?_, ?_⟩
  · rw [Store.liveCount, undisturbed.live_eq]
    exact two_live
  · rw [after_governed.inForce, settings_eq]

end HeapSampler
