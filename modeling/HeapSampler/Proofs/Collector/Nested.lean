import Mathlib
import HeapSampler.Proofs.Collector.Exhaustion

/-!
# Flushes within flushes

While a flush waits for the host, anything may be called on the collector, a flush included.  Such
a flush is refused and leaves no trace: without it the run would have gone the same way, up to what
the outer flush returns.  When the outer flush has returned, with a profile or without, the next
one is not refused.
-/

namespace HeapSampler

variable {settings : Settings} {history : List Moment} {machine after : Machine} {move : Move}
  {progress : Progress}

/-! ## Taking a run apart -/

theorem replayFrom_concat {before : List Moment} {first : Machine} {moves : List Move}
    (replayed : replayFrom before first moves = some (history, machine))
    (stepped : machine.step? move = some (progress, after)) :
    replayFrom before first (moves ++ [move]) =
      some (⟨machine, move, progress, after⟩ :: history, after) := by
  induction moves generalizing before first with
  | nil =>
      cases replayed
      rw [List.nil_append, replayFrom, stepped]
      rfl
  | cons next rest ih =>
      unfold replayFrom at replayed
      rw [List.cons_append, replayFrom]
      split at replayed
      · cases replayed
      · exact ih replayed

theorem replay_concat {moves : List Move}
    (replayed : replay settings moves = some (history, machine))
    (stepped : machine.step? move = some (progress, after)) :
    replay settings (moves ++ [move]) =
      some (⟨machine, move, progress, after⟩ :: history, after) := by
  unfold replay at replayed ⊢
  split at replayed
  · cases replayed
  · exact replayFrom_concat replayed stepped

/-! ## Nested flushes -/

abbrev Progress.refusal : Progress :=
  .replied (.flushed (.error .alreadyFlushing))

namespace Moment

def nested (moment : Moment) : Bool :=
  match moment.move with
  | .call (.flush _) => !moment.before.cycles.isEmpty
  | _ => false

def endsFlush (moment : Moment) : Bool :=
  moment.progress.profile?.isSome || moment.progress.failure?.isSome

theorem exists_of_nested {moment : Moment} (nested : moment.nested = true) :
    ∃ clock, moment.move = .call (.flush clock) ∧ moment.before.cycles ≠ [] := by
  unfold Moment.nested at nested
  split at nested
  · rename_i clock move_eq
    refine ⟨clock, move_eq, fun none_under_way => ?_⟩
    simp [none_under_way] at nested
  · cases nested

end Moment

namespace Collector.Carries

variable {collector : Collector} {cycle : Cycle} {included : List Handle}
  {live : List (Identity × Handle)} {pending : Nat}

/-- A stretch of a flush is never refused. -/
theorem not_refused (carries : Carries cycle included live pending collector progress) :
    progress ≠ .refusal := by
  rintro rfl
  obtain ⟨-, -, -, -, ⟨profile, same, -⟩ | ⟨cause, same, -⟩⟩ := carries
  · cases same
  · cases same

/-- A stretch that ends a flush leaves none under way. -/
theorem idle_of_ended (carries : Carries cycle included live pending collector progress)
    (ended : progress.profile?.isSome || progress.failure?.isSome) :
    collector.flushing = false := by
  cases progress with
  | waiting suspended => cases ended
  | replied reply => exact carries.1

end Collector.Carries

namespace Machine

theorem Sound.flushing_iff (sound : machine.Sound) :
    machine.collector.flushing = true ↔ machine.cycles ≠ [] := by
  rw [← List.length_pos_iff, sound.cycles_length]
  cases machine.collector.flushing <;> simp

/-- A flush within a flush is refused, and nothing changes. -/
theorem Sound.step?_nested (sound : machine.Sound) (underway : machine.cycles ≠ [])
    (clock : Clock) :
    machine.step? (.call (.flush clock)) = some (.refusal, machine) := by
  have flushing := sound.flushing_iff.mpr underway
  simp only [step?, Collector.call, Collector.flush, flushing, if_true]
  rfl

/-- A flush is called, and none is under way: it begins. -/
theorem Sound.exists_begun (sound : machine.Sound) (idle : machine.cycles = []) (clock : Clock) :
    ∃ progress after, machine.step? (.call (.flush clock)) = some (progress, after) ∧
      progress ≠ .refusal := by
  have not_flushing : machine.collector.flushing = false := by
    rw [← Bool.not_eq_true, sound.flushing_iff]
    exact not_not.mpr idle
  obtain ⟨⟨collector, progress⟩, went⟩ : ∃ reached, machine.collector.flush clock = .ok reached :=
    Collector.exists_of_flush sound.balanced_idle
  have carries :=
    Collector.carries_of_flush not_flushing (sound.balanced_idle not_flushing) went
  refine ⟨progress, { collector, waiting := progress.onto machine.waiting }, ?_,
    carries.not_refused⟩
  simp only [step?, Collector.call, went]

/-- When a flush returns that has not been refused, none is under way. -/
theorem Sound.idle_of_ended (sound : machine.Sound)
    (stepped : machine.step? move = some (progress, after))
    (ended : progress.profile?.isSome || progress.failure?.isSome) : after.cycles = [] := by
  have sound_after := sound.step stepped
  refine sound_after.cycles_eq_nil ?_
  cases sound.passage stepped with
  | begins move_eq idle cycles_eq went waiting_eq =>
      exact (sound.carries_of_flush idle went).idle_of_ended ended
  | proceeds move_eq before_eq inside cycles_eq flushing went waiting_eq =>
      exact (sound.carries_of_resume before_eq inside flushing went).idle_of_ended ended
  | passes foreign passed outside cycles_eq waiting_subset =>
      -- what passes by can only have been refused
      cases progress with
      | waiting suspended => cases ended
      | replied reply =>
          cases reply with
          | noted => cases ended
          | settled result => cases ended
          | flushed result =>
              cases show result = .error .alreadyFlushing from outside
              cases ended

end Machine

/-! ## Runs -/

/-- Flushes that are refused can be left out of a run, any of them: the other moments are the same,
with all that has been returned in them, and so is the machine at the end. -/
theorem replay_without_nested (run : Run settings history machine) {keeps : Moment → Bool}
    (nested : ∀ moment ∈ history, keeps moment = false → moment.nested = true) :
    replay settings ((history.filter keeps).reverse.map Moment.move) =
      some (history.filter keeps, machine) := by
  induction run with
  | created created =>
      rw [List.filter_nil, List.reverse_nil, List.map_nil, replay, created]
      rfl
  | @moved history machine after move progress run stepped ih =>
      obtain ⟨first, others⟩ := List.forall_mem_cons.mp nested
      have replayed := ih others
      cases kept : keeps ⟨machine, move, progress, after⟩ with
      | true =>
          rw [List.filter_cons_of_pos kept, List.reverse_cons, List.map_append, List.map_singleton]
          exact replay_concat replayed stepped
      | false =>
          obtain ⟨clock, move_eq, underway⟩ := Moment.exists_of_nested (first kept)
          cases move_eq
          cases stepped.symm.trans (run.sound.step?_nested underway clock)
          rw [List.filter_cons_of_neg (Bool.not_eq_true _ ▸ kept)]
          exact replayed

/-- Every moment of a run is a step from a machine that the run has come to. -/
theorem Run.step_of_mem (run : Run settings history machine) {moment : Moment}
    (listed : moment ∈ history) :
    moment.before.Sound ∧
      moment.before.step? moment.move = some (moment.progress, moment.after) := by
  induction run with
  | created created => cases listed
  | moved run stepped ih =>
      rcases List.mem_cons.mp listed with rfl | earlier
      · exact ⟨run.sound, stepped⟩
      · exact ih earlier

/--
A flush that is called while another one is under way, at whatever depth, is refused and leaves the
machine as it is.  Without such calls, all of them or some, the run goes the same way: every other
moment is the same, the return of the outer flush among them.  After a flush has returned none is
under way, and then a flush is not refused.
-/
theorem nested_flushes_of_run (run : Run settings history machine) :
    (machine.cycles ≠ [] →
      ∀ clock, machine.step? (.call (.flush clock)) = some (.refusal, machine)) ∧
    (∀ keeps : Moment → Bool,
      (∀ moment ∈ history, keeps moment = false → moment.nested = true) →
      replay settings ((history.filter keeps).reverse.map Moment.move) =
        some (history.filter keeps, machine)) ∧
    (∀ moment ∈ history, moment.endsFlush = true → moment.after.cycles = []) ∧
    (machine.cycles = [] → ∀ clock, ∃ progress after,
      machine.step? (.call (.flush clock)) = some (progress, after) ∧ progress ≠ .refusal) := by
  refine ⟨run.sound.step?_nested, fun keeps nested => replay_without_nested run nested, ?ended,
    run.sound.exists_begun⟩
  case ended =>
    intro moment listed ended
    obtain ⟨sound, stepped⟩ := run.step_of_mem listed
    exact sound.idle_of_ended stepped ended

/-- A flush with a limit of one byte; others are called while a sample is symbolized, while the
stack of an allocation in there is captured, and while the sample is measured. -/
def flushedWhileFlushing : List Move :=
  let answer := Move.answer (.uniform [⟨"work", "work.rb", 7⟩])
  let flush := Move.call (.flush ⟨0, 0⟩)
  [.call (.start 0), answer, .call (.allocate ⟨1⟩ [] 0), answer, flush, flush,
    .call (.allocate ⟨2⟩ [] 0), flush, answer, answer, flush, answer]

theorem nested_flushes_of_flushedWhileFlushing :
    let settings : Settings := { sampleRate := 1, maxProfileBytes := 1, compression := .none }
    (∃ history machine, replay settings (flushedWhileFlushing.take 7) = some (history, machine) ∧
      machine.cycles ≠ [] ∧
      machine.step? (.call (.flush ⟨0, 0⟩)) = some (.refusal, machine)) ∧
    ∃ history machine, replay settings flushedWhileFlushing = some (history, machine) ∧
      (history.filter Moment.nested).length = 3 ∧
      replay settings ((history.filter (!·.nested)).reverse.map Moment.move) =
        some (history.filter (!·.nested), machine) ∧
      (∃ moment ∈ history, moment.progress.failure?.isSome ∧ moment.after.cycles = []) ∧
      ∃ progress after,
        machine.step? (.call (.flush ⟨0, 0⟩)) = some (progress, after) ∧ progress ≠ .refusal := by
  intro settings
  constructor
  · obtain ⟨history, machine, replayed, checked⟩ := exists_of_replay settings
      (flushedWhileFlushing.take 7) (fun run => !run.2.cycles.isEmpty) (by decide +kernel)
    have underway : machine.cycles ≠ [] := by
      rintro none_under_way
      simp [none_under_way] at checked
    exact ⟨history, machine, replayed, underway,
      (nested_flushes_of_run (Run.of_replay replayed)).1 underway ⟨0, 0⟩⟩
  · obtain ⟨history, machine, replayed, checked⟩ := exists_of_replay settings flushedWhileFlushing
      (fun run => decide ((run.1.filter Moment.nested).length = 3) &&
        (run.2.cycles.isEmpty && run.1.any (·.progress.failure?.isSome))) (by decide +kernel)
    obtain ⟨three, idle, failed⟩ := by
      simpa only [Bool.and_eq_true, decide_eq_true_eq, List.isEmpty_iff, List.any_eq_true]
        using checked
    obtain ⟨moment, listed, fails⟩ := failed
    obtain ⟨-, removed, ended, begun⟩ := nested_flushes_of_run (Run.of_replay replayed)
    refine ⟨history, machine, replayed, three, removed _ ?_, ⟨moment, listed, fails, ?_⟩,
      begun idle ⟨0, 0⟩⟩
    · intro other _ dropped
      simpa using dropped
    · refine ended moment listed ?_
      rw [Moment.endsFlush, fails, Bool.or_true]

end HeapSampler
