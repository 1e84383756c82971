import Mathlib
import HeapSampler.Proofs.Collector.Stretch
import HeapSampler.Proofs.Store.Preserves

/-!
# Runs of a collector

A collector together with the calls on it that wait is a machine.  It moves when the surroundings
make a call, at any depth, or answer the innermost call that waits, in any way.  Between moves of
theirs the live table can take another order.  A run is what happens to a machine from the creation
of its collector on.  On every run the books balance: what is held besides the live table is held by
the flush under way.
-/

namespace HeapSampler

def Collector.reordered (collector : Collector) (live : List (Identity × Handle)) : Collector :=
  collector.withStore { collector.store with live }

/-- The order of the live table does not matter to the flush under way. -/
theorem Collector.passes_of_reordered {collector : Collector} {held : List Handle}
    {live : List (Identity × Handle)} (balanced : collector.inventory.Balanced [] held [])
    (shuffled : collector.store.live.Perm live) :
    collector.Passes (collector.reordered live) held :=
  { Passes.refl balanced with balanced := balanced.shuffle shuffled }

/-- The calls that wait when a stretch has ended, given those around it. -/
def Progress.onto : Progress → List Suspended → List Suspended
  | replied _, outer => outer
  | waiting suspended, outer => suspended :: outer

structure Machine where
  collector : Collector
  waiting : List Suspended := []

inductive Move where
  /-- The surroundings make a call, from outside or from within whatever waits. -/
  | call (call : Call)
  /-- They answer the innermost request as a host does. -/
  | answer (host : Host)
  /-- The live table, which promises no order, lists its entries in another one from now on. -/
  | rehash (live : List (Identity × Handle))

namespace Machine

/-- What a move leads to, if it can be made and the books do not turn out to be broken. -/
def step? (machine : Machine) : Move → Option (Progress × Machine)
  | .call call =>
      match machine.collector.call call with
      | .ok (collector, progress) =>
          some (progress, { collector, waiting := progress.onto machine.waiting })
      | .error _ => none
  | .answer host =>
      match machine.waiting with
      | [] => none
      | suspended :: outer =>
          match machine.collector.resume suspended (host.answer suspended.request) with
          | .ok (collector, progress) =>
              some (progress, { collector, waiting := progress.onto outer })
          | .error _ => none
  | .rehash live =>
      if machine.collector.store.live.Perm live then
        some (.replied .noted, { machine with collector := machine.collector.reordered live })
      else none

def cycles (machine : Machine) : List Cycle :=
  machine.waiting.filterMap Suspended.cycle?

def held (machine : Machine) : List Handle :=
  machine.cycles.flatMap Cycle.snapshot

end Machine

structure Moment where
  before : Machine
  move : Move
  progress : Progress
  after : Machine

namespace Moment

def beginsFlush (moment : Moment) : Bool :=
  match moment.move with
  | .call (.flush _) => !moment.before.collector.flushing
  | _ => false

end Moment

/-- What can have happened to a machine, the latest moment in front. -/
inductive Run (settings : Settings) : List Moment → Machine → Prop where
  | created {collector : Collector} (created : Collector.create settings = .ok collector) :
      Run settings [] { collector }
  | moved {history : List Moment} {machine after : Machine} {move : Move} {progress : Progress}
      (run : Run settings history machine)
      (stepped : machine.step? move = some (progress, after)) :
      Run settings (⟨machine, move, progress, after⟩ :: history) after

def replayFrom (history : List Moment) (machine : Machine) :
    List Move → Option (List Moment × Machine)
  | [] => some (history, machine)
  | move :: rest =>
      match machine.step? move with
      | none => none
      | some (progress, after) =>
          replayFrom (⟨machine, move, progress, after⟩ :: history) after rest

def replay (settings : Settings) (moves : List Move) : Option (List Moment × Machine) :=
  match Collector.create settings with
  | .error _ => none
  | .ok collector => replayFrom [] { collector } moves

theorem Run.of_replayFrom {settings : Settings} {history whole : List Moment}
    {machine last : Machine} {moves : List Move} (run : Run settings history machine)
    (replayed : replayFrom history machine moves = some (whole, last)) :
    Run settings whole last := by
  induction moves generalizing history machine with
  | nil =>
      cases replayed
      exact run
  | cons move rest ih =>
      unfold replayFrom at replayed
      split at replayed
      · cases replayed
      · rename_i progress after stepped
        exact ih (.moved run stepped) replayed

theorem Run.of_replay {settings : Settings} {history : List Moment} {machine : Machine}
    {moves : List Move} (replayed : replay settings moves = some (history, machine)) :
    Run settings history machine := by
  unfold replay at replayed
  split at replayed
  · cases replayed
  · rename_i collector created
    exact (Run.created created).of_replayFrom replayed

/-- A run is found by replaying its moves; what is decided of the outcome holds of it. -/
theorem exists_of_replay (settings : Settings) (moves : List Move)
    (check : List Moment × Machine → Bool) (checked : (replay settings moves).any check = true) :
    ∃ history machine, replay settings moves = some (history, machine) ∧
      check (history, machine) = true := by
  obtain ⟨⟨history, machine⟩, replayed, passed⟩ := (Option.any_eq_true _ _).mp checked
  exact ⟨history, machine, replayed, passed⟩

def Progress.profile? : Progress → Option ExportedProfile
  | replied (.flushed (.ok profile)) => some profile
  | replied (.flushed (.error _)) | replied .noted | replied (.settled _) | waiting _ => none

def Progress.failure? : Progress → Option EncodeError
  | replied (.flushed (.error (.encodingFailure cause))) => some cause
  | replied (.flushed (.error .alreadyFlushing)) | replied (.flushed (.ok _)) | replied .noted
  | replied (.settled _) | waiting _ => none

theorem Progress.profile?_eq_some {progress : Progress} {profile : ExportedProfile}
    (found : progress.profile? = some profile) : progress = .replied (.flushed (.ok profile)) := by
  unfold profile? at found
  split at found
  · cases found
    rfl
  all_goals cases found

theorem Progress.failure?_eq_some {progress : Progress} {cause : EncodeError}
    (found : progress.failure? = some cause) :
    progress = .replied (.flushed (.error (.encodingFailure cause))) := by
  unfold failure? at found
  split at found
  · cases found
    rfl
  all_goals cases found

/-- A host with one stack, the places that it stands for, and objects of one size. -/
def Host.uniform (places : List NamedPlace) : Host where
  stack := ⟨[⟨7⟩]⟩
  symbolize _ := .ok places
  objectSize _ := some 64

namespace Machine

variable {machine after : Machine} {move : Move} {progress : Progress}

theorem step?_call {call : Call} (stepped : machine.step? (.call call) = some (progress, after)) :
    machine.collector.call call = .ok (after.collector, progress) ∧
      after.waiting = progress.onto machine.waiting := by
  simp only [step?] at stepped
  split at stepped
  · rename_i collector reached went
    cases stepped
    exact ⟨went, rfl⟩
  · cases stepped

theorem step?_answer {host : Host}
    (stepped : machine.step? (.answer host) = some (progress, after)) :
    ∃ suspended outer, machine.waiting = suspended :: outer ∧
      machine.collector.resume suspended (host.answer suspended.request) =
        .ok (after.collector, progress) ∧
      after.waiting = progress.onto outer := by
  simp only [step?] at stepped
  split at stepped
  · cases stepped
  · rename_i suspended outer waiting
    split at stepped
    · rename_i collector reached went
      cases stepped
      exact ⟨suspended, outer, waiting, went, rfl⟩
    · cases stepped

theorem step?_rehash {live : List (Identity × Handle)}
    (stepped : machine.step? (.rehash live) = some (progress, after)) :
    machine.collector.store.live.Perm live ∧ progress = .replied .noted ∧
      after = { machine with collector := machine.collector.reordered live } := by
  simp only [step?] at stepped
  split at stepped
  · rename_i shuffled
    cases stepped
    exact ⟨shuffled, rfl, rfl⟩
  · cases stepped

/-- The books balance, and there is at most one flush under way, which is sound. -/
structure Sound (machine : Machine) : Prop where
  balanced : machine.collector.inventory.Balanced [] machine.held []
  cycles_length : machine.cycles.length = machine.collector.flushing.toNat
  waiting : ∀ suspended ∈ machine.waiting, suspended.Sound machine.collector.inventory

theorem Sound.cycles_eq_nil (sound : machine.Sound) (idle : machine.collector.flushing = false) :
    machine.cycles = [] := by
  rw [← List.length_eq_zero_iff, sound.cycles_length, idle]
  rfl

theorem Sound.balanced_idle (sound : machine.Sound) (idle : machine.collector.flushing = false) :
    machine.collector.inventory.Balanced [] [] [] := by
  have balanced := sound.balanced
  rw [held, sound.cycles_eq_nil idle] at balanced
  exact balanced

/-- What is held is held by the flush under way. -/
theorem Sound.held_eq (sound : machine.Sound) {suspended : Suspended} {cycle : Cycle}
    (listed : suspended ∈ machine.waiting) (inside : suspended.cycle? = some cycle) :
    machine.held = cycle.snapshot := by
  have member : cycle ∈ machine.cycles := List.mem_filterMap.mpr ⟨suspended, listed, inside⟩
  have single : machine.cycles.length ≤ 1 := by
    rw [sound.cycles_length]
    exact Bool.toNat_le _
  obtain ⟨first, rest, cycles_eq⟩ := List.exists_cons_of_ne_nil (List.ne_nil_of_mem member)
  rw [cycles_eq, List.length_cons] at single
  obtain rfl := List.length_eq_zero_iff.mp (show rest.length = 0 by omega)
  rw [cycles_eq, List.mem_singleton] at member
  rw [held, cycles_eq, member]
  exact List.append_nil _

theorem Sound.balanced_underway (sound : machine.Sound) {suspended : Suspended} {cycle : Cycle}
    (listed : suspended ∈ machine.waiting) (inside : suspended.cycle? = some cycle) :
    machine.collector.inventory.Balanced [] cycle.snapshot [] :=
  sound.held_eq listed inside ▸ sound.balanced

theorem Sound.carries_of_flush {clock : Clock} (sound : machine.Sound)
    (idle : machine.collector.flushing = false)
    (went : machine.collector.flush clock = .ok (after.collector, progress)) :
    Collector.Carries
      { snapshot := machine.collector.store.live.map Prod.snd
        dropped := machine.collector.store.dropped
        options := machine.collector.exportOptions clock }
      [] machine.collector.store.live 0 after.collector progress :=
  Collector.carries_of_flush idle (sound.balanced_idle idle) went

/-- An answer to the flush under way, which owns its snapshot and nothing else. -/
theorem Sound.carries_of_resume {suspended : Suspended} {answer : suspended.request.Answer}
    {cycle : Cycle} {outer : List Suspended} (sound : machine.Sound)
    (waiting : machine.waiting = suspended :: outer) (inside : suspended.cycle? = some cycle)
    (flushing : machine.collector.flushing = true)
    (went : machine.collector.resume suspended answer = .ok (after.collector, progress)) :
    Collector.Carries cycle
      ((machine.collector.measured? suspended answer).toList ++ suspended.included)
      machine.collector.store.live machine.collector.store.dropped after.collector progress := by
  have listed : suspended ∈ machine.waiting := waiting ▸ List.mem_cons_self
  exact Collector.carries_of_resume inside flushing (sound.balanced_underway listed inside)
    (sound.waiting suspended listed) went

/-- A move that neither begins a flush nor answers one. -/
inductive Foreign (machine : Machine) : Move → Prop where
  | call {call : Call}
      (passing : ∀ clock, call = .flush clock → machine.collector.flushing = true) :
      Foreign machine (.call call)
  | answer {host : Host} {suspended : Suspended} {outer : List Suspended}
      (waiting : machine.waiting = suspended :: outer) (outside : suspended.cycle? = none) :
      Foreign machine (.answer host)
  | rehash {live : List (Identity × Handle)} : Foreign machine (.rehash live)

theorem Foreign.beginsFlush_eq (foreign : machine.Foreign move) :
    Moment.beginsFlush ⟨machine, move, progress, after⟩ = false := by
  cases foreign with
  | @call call passing =>
      cases call with
      | flush clock => simp [Moment.beginsFlush, passing clock rfl]
      | _ => rfl
  | answer waiting outside => rfl
  | rehash => rfl

/-- The kinds of moves, as far as the flush under way is concerned. -/
inductive Passage (before : Machine) (move : Move) (progress : Progress) (after : Machine) :
    Prop where
  /-- A flush begins. -/
  | begins {clock : Clock} (move_eq : move = .call (.flush clock))
      (idle : before.collector.flushing = false) (cycles_eq : before.cycles = [])
      (went : before.collector.flush clock = .ok (after.collector, progress))
      (waiting_eq : after.waiting = progress.onto before.waiting)
  /-- The flush under way, which is the innermost call, goes on. -/
  | proceeds {host : Host} {suspended : Suspended} {cycle : Cycle} {outer : List Suspended}
      (move_eq : move = .answer host) (before_eq : before.waiting = suspended :: outer)
      (inside : suspended.cycle? = some cycle) (cycles_eq : outer.filterMap Suspended.cycle? = [])
      (flushing : before.collector.flushing = true)
      (went : before.collector.resume suspended (host.answer suspended.request) =
        .ok (after.collector, progress))
      (waiting_eq : after.waiting = progress.onto outer)
  /-- Whatever has to do with no flush passes by. -/
  | passes (foreign : before.Foreign move)
      (passed : before.collector.Passes after.collector before.held) (outside : progress.Outside)
      (cycles_eq : after.cycles = before.cycles)
      (waiting_subset : ∀ suspended ∈ after.waiting,
        suspended ∈ before.waiting ∨ suspended.cycle? = none)

theorem Sound.passage (sound : machine.Sound)
    (stepped : machine.step? move = some (progress, after)) :
    machine.Passage move progress after := by
  cases move with
  | call call =>
      obtain ⟨went, waiting_eq⟩ := step?_call stepped
      rcases Collector.call_cases sound.balanced went with
        ⟨clock, rfl, idle, flushed⟩ | ⟨other, passed, outside⟩
      · exact .begins rfl idle (sound.cycles_eq_nil idle) flushed waiting_eq
      · cases progress with
        | replied reply =>
            refine .passes (.call other) passed outside
              (by simp [cycles, waiting_eq, Progress.onto]) ?_
            intro suspended member
            rw [waiting_eq] at member
            exact .inl member
        | waiting suspended =>
            have none : suspended.cycle? = none := outside
            refine .passes (.call other) passed outside
              (by simp [cycles, waiting_eq, Progress.onto, none]) ?_
            intro other member
            rw [waiting_eq] at member
            rcases List.mem_cons.mp member with rfl | member
            · exact .inr none
            · exact .inl member
  | answer host =>
      obtain ⟨suspended, outer, waiting, went, waiting_eq⟩ := step?_answer stepped
      cases inside : suspended.cycle? with
      | some cycle =>
          have cycles_eq : machine.cycles = cycle :: outer.filterMap Suspended.cycle? := by
            simp [cycles, waiting, inside]
          have length_eq := sound.cycles_length
          rw [cycles_eq, List.length_cons] at length_eq
          have flushing : machine.collector.flushing = true := by
            cases flushing : machine.collector.flushing with
            | true => rfl
            | false => simp [flushing] at length_eq
          refine .proceeds rfl waiting inside ?_ flushing went waiting_eq
          rw [flushing, Bool.toNat_true] at length_eq
          exact List.length_eq_zero_iff.mp (by omega)
      | none =>
          obtain ⟨passed, outside, reply, rfl⟩ :=
            Collector.passes_of_resume inside sound.balanced went
          refine .passes (.answer waiting inside) passed outside
            (by simp [cycles, waiting, waiting_eq, inside, Progress.onto]) ?_
          intro other member
          rw [waiting_eq] at member
          exact .inl (waiting ▸ List.mem_cons_of_mem _ member)
  | rehash live =>
      obtain ⟨shuffled, rfl, rfl⟩ := step?_rehash stepped
      exact .passes .rehash (Collector.passes_of_reordered sound.balanced shuffled) trivial rfl
        fun _ member => .inl member

/-- A stretch of a flush within calls that belong to none. -/
theorem sound_of_carries {cycle : Cycle} {included : List Handle}
    {live : List (Identity × Handle)} {pending : Nat} {outer : List Suspended}
    (outside : outer.filterMap Suspended.cycle? = [])
    (carries : Collector.Carries cycle included live pending after.collector progress)
    (waiting_eq : after.waiting = progress.onto outer) : after.Sound := by
  have outer_sound (inventory : Inventory) (suspended : Suspended) (member : suspended ∈ outer) :
      suspended.Sound inventory :=
    Suspended.sound_of_cycle?_eq_none (List.filterMap_eq_nil_iff.mp outside _ member)
  cases progress with
  | replied reply =>
      obtain ⟨idle, balanced, -⟩ := carries
      have cycles_eq : after.cycles = [] := by rw [cycles, waiting_eq]; exact outside
      refine ⟨by rw [held, cycles_eq]; exact balanced, by rw [cycles_eq, idle]; rfl, ?_⟩
      intro suspended member
      rw [waiting_eq] at member
      exact outer_sound _ suspended member
  | waiting innermost =>
      obtain ⟨flushing, balanced, sound, -, -, -, skipped, inside⟩ := carries
      have cycles_eq : after.cycles = [{ cycle with skipped }] := by
        rw [cycles, waiting_eq, Progress.onto, List.filterMap_cons_some inside, outside]
      refine ⟨?_, by rw [cycles_eq, flushing]; rfl, ?_⟩
      · rw [held, cycles_eq, List.flatMap_cons, List.flatMap_nil, List.append_nil]
        exact balanced
      · intro suspended member
        rw [waiting_eq] at member
        rcases List.mem_cons.mp member with rfl | member
        · exact sound
        · exact outer_sound _ suspended member

theorem sound_of_passes {before after : Collector} {held : List Handle} {suspended : Suspended}
    (sound : suspended.Sound before.inventory) (passed : before.Passes after held)
    (owned : ∀ cycle, suspended.cycle? = some cycle → cycle.snapshot ⊆ held) :
    suspended.Sound after.inventory := by
  cases suspended with
  | symbolizing cycle handle backtrace rest =>
      obtain ⟨nodup, remains, sample, found, unsymbolized⟩ := sound
      refine ⟨nodup, remains, ?_⟩
      obtain ⟨old, aged, old_found, aged_found, ages⟩ :=
        passed.ages handle (owned cycle rfl (remains.subset (List.mem_cons_self ..)))
      cases found.symm.trans old_found
      exact ⟨aged, aged_found, ages.symbolized_eq.trans unsymbolized⟩
  | measuring => exact sound
  | capturing => trivial
  | subscribing => trivial
  | unsubscribing => trivial

/-- No move upsets the books. -/
theorem Sound.step (sound : machine.Sound)
    (stepped : machine.step? move = some (progress, after)) : after.Sound := by
  cases sound.passage stepped with
  | begins move_eq idle cycles_eq went waiting_eq =>
      exact sound_of_carries cycles_eq (sound.carries_of_flush idle went) waiting_eq
  | proceeds move_eq before_eq inside cycles_eq flushing went waiting_eq =>
      have carries := sound.carries_of_resume before_eq inside flushing went
      exact sound_of_carries cycles_eq carries waiting_eq
  | passes foreign passed outside cycles_eq waiting_subset =>
      refine ⟨by rw [held, cycles_eq]; exact passed.balanced,
        by rw [cycles_eq, passed.flushing_eq]; exact sound.cycles_length, ?_⟩
      intro suspended member
      rcases waiting_subset suspended member with kept | outside
      · refine sound_of_passes (sound.waiting suspended kept) passed ?_
        intro cycle inside handle owned
        exact List.mem_flatMap.mpr ⟨cycle, List.mem_filterMap.mpr ⟨suspended, kept, inside⟩, owned⟩
      · exact Suspended.sound_of_cycle?_eq_none outside

end Machine

theorem Collector.sound_of_create {settings : Settings} {collector : Collector}
    (created : Collector.create settings = .ok collector) : Machine.Sound { collector } := by
  unfold create at created
  split at created
  · cases created
    exact ⟨Inventory.balanced_empty _, rfl, fun _ member => absurd member List.not_mem_nil⟩
  · cases created

/-- The books balance at every moment of every run. -/
theorem Run.sound {settings : Settings} {history : List Moment} {machine : Machine}
    (run : Run settings history machine) : machine.Sound := by
  induction run with
  | created created => exact Collector.sound_of_create created
  | moved run stepped ih => exact ih.step stepped

end HeapSampler
