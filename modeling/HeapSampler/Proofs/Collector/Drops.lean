import Mathlib
import HeapSampler.Proofs.Collector.Runs

/-!
# The account of drops

What becomes of the allocations that are dropped in a session: a flush that succeeds reports them,
and until then they are pending.  A flush takes the pending ones along when it begins and puts them
back if it fails, whatever has happened meanwhile.  So if a session starts while a flush is under
way and that flush then fails, drops of the session before are carried over into the new one, and
these are the only ones.
-/

namespace HeapSampler

namespace Moment

def startsSession (moment : Moment) : Bool :=
  match moment.move with
  | .call (.start _) => !moment.before.collector.running
  | _ => false

def reportedDrops (moment : Moment) : Nat :=
  match moment.progress with
  | .replied (.flushed (.ok profile)) => profile.droppedCount
  | _ => 0

def failsFlush (moment : Moment) : Bool :=
  match moment.progress with
  | .replied (.flushed (.error (.encodingFailure _))) => true
  | _ => false

/-- The sampled allocation that has been dealt with, if the collector runs. -/
def allocated? (moment : Moment) : Option Identity :=
  match moment.progress with
  | .waiting _ => none
  | .replied _ =>
      if moment.before.collector.running then
        match moment.move, moment.before.waiting with
        | .call (.allocate identity _ draw), _ =>
            if moment.before.collector.settings.rate.admits draw then some identity else none
        | .answer _, .capturing identity _ :: _ => some identity
        | _, _ => none
      else none

/-- Whether a sampled allocation has been dealt with and is not live. -/
def drops (moment : Moment) : Bool :=
  moment.allocated?.any fun identity => !moment.after.collector.store.contains identity

end Moment

/-! ## Since the latest start of a session -/

/-- How many allocations were dropped since a session started. -/
def droppedSince : List Moment → Nat
  | [] => 0
  | moment :: earlier =>
      if moment.startsSession then 0 else droppedSince earlier + moment.drops.toNat

def begunSince : List Moment → Bool
  | [] => false
  | moment :: earlier =>
      if moment.startsSession then false else moment.beginsFlush || begunSince earlier

/-- The drops reported by those flushes that began since a session started. -/
def reportedSince : List Moment → Nat
  | [] => 0
  | moment :: earlier =>
      if moment.startsSession then 0
      else reportedSince earlier +
        if begunSince (moment :: earlier) then moment.reportedDrops else 0

/-- The drops that the latest flush took when it began. -/
def takenDrops (history : List Moment) : Nat :=
  ((history.find? Moment.beginsFlush).map fun moment =>
    moment.before.collector.store.dropped).getD 0

/-- The drops put back since a session started by a flush that had begun before. -/
def carriedSince : List Moment → Nat
  | [] => 0
  | moment :: earlier =>
      if moment.startsSession then 0
      else carriedSince earlier +
        if moment.failsFlush && !begunSince (moment :: earlier) then takenDrops (moment :: earlier)
        else 0

inductive Moment.Entry (moment : Moment) : Prop where
  | starts (starts : moment.startsSession = true)
      (emptied : moment.after.collector.store.dropped = 0)
  | drops (inside : moment.startsSession = false) (drops : moment.drops = true)
      (counted : moment.after.collector.store.dropped =
        (moment.before.collector.store.dropped + 1) % (Store.maxDropped + 1))
  | other (inside : moment.startsSession = false) (kept : moment.drops = false)
      (unchanged : moment.after.collector.store.dropped = moment.before.collector.store.dropped)

namespace Collector

variable {collector after : Collector} {progress : Progress} {held : List Handle}

theorem contains_iff {inventory : Inventory} {leaving : List Handle} {spare : List StringId}
    (balanced : inventory.Balanced leaving held spare) (identity : Identity) :
    inventory.store.contains identity = true ↔
      ∃ handle, (identity, handle) ∈ inventory.store.live := by
  rw [Store.contains, Option.isSome_iff_exists]
  exact exists_congr fun handle => balanced.handle?_eq_some_iff

/-- A captured allocation is counted as a drop exactly if it does not become live. -/
theorem dropped_of_resumeCapture {identity : Identity} {tags : List (String × String)}
    {backtrace : Backtrace} (balanced : collector.inventory.Balanced [] held [])
    (running : collector.running = true)
    (went : collector.resumeCapture identity tags backtrace = .ok after) :
    after.store.contains identity = true ∧ after.store.dropped = collector.store.dropped ∨
      after.store.contains identity = false ∧
        after.store.dropped = (collector.store.dropped + 1) % (Store.maxDropped + 1) := by
  obtain ⟨tables, ids, inventory, result, -, -, spared, recorded, rfl⟩ :=
    exists_recorded balanced running went
  obtain ⟨middle, -, aged, live_eq, balanced', outcome⟩ :=
    spared.recordAllocation (.of_eq (List.append_nil _).symm) recorded
  have middle_dropped : middle.store.dropped = collector.inventory.store.dropped :=
    aged.dropped_eq
  rcases outcome with ⟨-, -, store_eq, -⟩ | ⟨-, -, arena, handle, -, -, rfl⟩
  · refine .inr ⟨?_, ?_⟩
    · rw [← Bool.not_eq_true]
      refine (contains_iff balanced' identity).not.mpr ?_
      rintro ⟨handle, listed⟩
      rw [store_eq] at listed
      have listed' : (identity, handle) ∈ middle.store.live := listed
      rw [live_eq] at listed'
      simp [Store.unlist] at listed'
    · change inventory.store.dropped = _
      rw [store_eq]
      exact congrArg (fun count => (count + 1) % (Store.maxDropped + 1)) middle_dropped
  · refine .inl ⟨(contains_iff balanced' identity).mpr ⟨handle, ?_⟩, middle_dropped⟩
    exact List.mem_append_right _ (List.mem_cons_self ..)

end Collector

namespace Machine

variable {machine after : Machine} {move : Move} {progress : Progress}

theorem drops_eq_false {moment : Moment} (absent : moment.allocated? = none) :
    moment.drops = false := by
  rw [Moment.drops, absent]
  rfl

/-- An allocation is passed over, dropped for lack of room or waits for its call stack. -/
theorem entry_of_allocate {identity : Identity} {tags : List (String × String)} {draw : UInt32}
    (went : machine.collector.allocate identity tags draw = (after.collector, progress)) :
    Moment.Entry ⟨machine, .call (.allocate identity tags draw), progress, after⟩ := by
  rw [Collector.allocate] at went
  split at went
  · rename_i skipped
    obtain ⟨after_eq, rfl⟩ := Prod.mk.inj went
    refine .other rfl (drops_eq_false ?_) (by rw [← after_eq])
    cases running : machine.collector.running with
    | false => simp [Moment.allocated?, running]
    | true =>
        have refused : machine.collector.settings.rate.admits draw = false := by
          simpa [running] using skipped
        simp [Moment.allocated?, running, refused]
  · rename_i sampled
    obtain ⟨running, admitted⟩ : machine.collector.running = true ∧
        machine.collector.settings.rate.admits draw = true := by simpa using sampled
    split at went
    · rename_i full
      obtain ⟨after_eq, rfl⟩ := Prod.mk.inj went
      rw [Bool.and_eq_true, Bool.not_eq_true'] at full
      refine .drops rfl ?_ (by rw [← after_eq]; rfl)
      have absent : after.collector.store.contains identity = false := by
        rw [← after_eq]
        exact full.2
      simp [Moment.drops, Moment.allocated?, running, admitted, absent]
    · obtain ⟨after_eq, rfl⟩ := Prod.mk.inj went
      exact .other rfl (drops_eq_false rfl) (by rw [← after_eq])

/-- Whether it was running or not, a collector that is stopped keeps its drops. -/
theorem dropped_of_halt {collector next : Collector} {refusal : Reply}
    (went : (if collector.running then
        ({ collector with running := false }, Progress.waiting .unsubscribing)
      else (collector, .replied refusal)) = (next, progress)) :
    next.store.dropped = collector.store.dropped := by
  split at went
  · obtain ⟨next_eq, -⟩ := Prod.mk.inj went
    rw [← next_eq]
    rfl
  · obtain ⟨next_eq, -⟩ := Prod.mk.inj went
    rw [next_eq]

theorem Sound.entry_of_call {call : Call} (sound : machine.Sound)
    (stepped : machine.step? (.call call) = some (progress, after))
    (outside : Moment.beginsFlush ⟨machine, .call call, progress, after⟩ = false) :
    Moment.Entry ⟨machine, .call call, progress, after⟩ := by
  obtain ⟨went, -⟩ := step?_call stepped
  cases call with
  | allocate identity tags draw => exact entry_of_allocate (Except.ok.inj went)
  | release identity =>
      obtain ⟨inventory, released, -, -, aged⟩ := sound.balanced.recordRelease identity
      simp only [Collector.call, Collector.release, released, bind, Except.bind, pure, Except.pure,
        Except.map, Except.ok.injEq, Prod.mk.injEq] at went
      obtain ⟨after_eq, rfl⟩ := went
      refine .other rfl (drops_eq_false (by simp [Moment.allocated?])) ?_
      rw [← after_eq]
      exact aged.dropped_eq
  | relocate old new =>
      obtain ⟨inventory, relocated, -, aged, -⟩ := sound.balanced.recordRelocation old new
      simp only [Collector.call, Collector.relocate, relocated, bind, Except.bind, pure,
        Except.pure, Except.map, Except.ok.injEq, Prod.mk.injEq] at went
      obtain ⟨after_eq, rfl⟩ := went
      refine .other rfl (drops_eq_false (by simp [Moment.allocated?])) ?_
      rw [← after_eq]
      exact aged.dropped_eq
  | start instant =>
      rcases Collector.start_cases sound.balanced went with
        ⟨running, after_eq, rfl⟩ | ⟨stopped, rfl, cleared, -, -, -, after_eq⟩
      · refine .other ?_ (drops_eq_false (by simp [Moment.allocated?])) (by rw [after_eq])
        simp [Moment.startsSession, running]
      · refine .starts ?_ (by rw [after_eq]; rfl)
        simp [Moment.startsSession, stopped]
  | stop =>
      refine .other rfl (drops_eq_false ?_) (dropped_of_halt (Except.ok.inj went))
      cases progress <;> simp [Moment.allocated?]
  | configure settings =>
      simp only [Collector.call, Except.ok.injEq, Prod.mk.injEq] at went
      obtain ⟨after_eq, rfl⟩ := went
      refine .other rfl (drops_eq_false (by simp [Moment.allocated?])) ?_
      rw [← after_eq, Collector.configure]
      split <;> rfl
  | setGlobalTags tags =>
      simp only [Collector.call, Except.ok.injEq, Prod.mk.injEq] at went
      obtain ⟨after_eq, rfl⟩ := went
      refine .other rfl (drops_eq_false (by simp [Moment.allocated?])) ?_
      rw [← after_eq, Collector.setGlobalTags]
      split <;> rfl
  | flush clock =>
      have flushing : machine.collector.flushing = true := by
        simpa [Moment.beginsFlush] using outside
      simp only [Collector.call, Collector.flush, flushing, if_true, Except.ok.injEq,
        Prod.mk.injEq] at went
      obtain ⟨after_eq, rfl⟩ := went
      exact .other rfl (drops_eq_false (by simp [Moment.allocated?])) (by rw [← after_eq])
  | retire =>
      refine .other rfl (drops_eq_false ?_) (dropped_of_halt (Except.ok.inj went))
      cases progress <;> simp [Moment.allocated?]

theorem Sound.entry_of_answer {host : Host} {suspended : Suspended} {outer : List Suspended}
    (sound : machine.Sound) (waiting : machine.waiting = suspended :: outer)
    (outside : suspended.cycle? = none)
    (went : machine.collector.resume suspended (host.answer suspended.request) =
      .ok (after.collector, progress)) :
    Moment.Entry ⟨machine, .answer host, progress, after⟩ := by
  rcases Collector.resume_outside outside went with
    ⟨identity, tags, rfl, resumed, rfl⟩ | ⟨either, after_eq, rfl⟩
  · cases running : machine.collector.running with
    | false =>
        have unchanged := (Collector.resumeCapture_of_stopped running).symm.trans resumed
        exact .other rfl (drops_eq_false (by simp [Moment.allocated?, running]))
          (by rw [← Except.ok.inj unchanged])
    | true =>
        have allocated : Moment.allocated?
            ⟨machine, .answer host, .replied .noted, after⟩ = some identity := by
          simp [Moment.allocated?, running, waiting]
        rcases Collector.dropped_of_resumeCapture sound.balanced running resumed with
          ⟨listed, unchanged⟩ | ⟨absent, counted⟩
        · exact .other rfl (by simp [Moment.drops, allocated, listed]) unchanged
        · exact .drops rfl (by simp [Moment.drops, allocated, absent]) counted
  · refine .other rfl (drops_eq_false ?_) (by rw [after_eq])
    rcases either with rfl | rfl
    · simp [Moment.allocated?, waiting]
    · simp [Moment.allocated?, waiting]

theorem Sound.entry_of_foreign (sound : machine.Sound) (foreign : machine.Foreign move)
    (stepped : machine.step? move = some (progress, after)) :
    Moment.Entry ⟨machine, move, progress, after⟩ := by
  cases foreign with
  | call passing => exact sound.entry_of_call stepped (Foreign.call passing).beginsFlush_eq
  | answer waiting outside =>
      obtain ⟨suspended, outer, own_waiting, went, -⟩ := step?_answer stepped
      cases waiting.symm.trans own_waiting
      exact sound.entry_of_answer waiting outside went
  | rehash =>
      obtain ⟨shuffled, rfl, rfl⟩ := step?_rehash stepped
      exact .other rfl (drops_eq_false (by simp [Moment.allocated?])) rfl

end Machine

/-! ## The account of a run -/

variable {settings : Settings} {history : List Moment} {machine after : Machine} {move : Move}
  {progress : Progress}

theorem Moment.reports_nothing (moment : Moment) (outside : moment.progress.Outside) :
    moment.reportedDrops = 0 ∧ moment.failsFlush = false := by
  unfold Moment.reportedDrops Moment.failsFlush
  cases found : moment.progress with
  | waiting suspended => exact ⟨rfl, rfl⟩
  | replied reply =>
      rw [found] at outside
      cases reply with
      | noted => exact ⟨rfl, rfl⟩
      | settled result => exact ⟨rfl, rfl⟩
      | flushed result =>
          have refused : result = .error .alreadyFlushing := outside
          rw [refused]
          exact ⟨rfl, rfl⟩

/-- How the drops of the current session are spread while a flush is under way and between. -/
structure Account (history : List Moment) (machine : Machine) : Prop where
  /-- No flush is under way, or one that began before the session. -/
  settled : (machine.collector.flushing = true → begunSince history = false) →
    reportedSince history + machine.collector.store.dropped =
      droppedSince history + carriedSince history
  /-- The flush under way began in the session. -/
  taken : machine.collector.flushing = true → begunSince history = true →
    reportedSince history + machine.collector.store.dropped + takenDrops history =
      droppedSince history + carriedSince history
  cycles : ∀ cycle ∈ machine.cycles, cycle.dropped = takenDrops history
  bounded : machine.collector.store.dropped +
    (if machine.collector.flushing then takenDrops history else 0) ≤ history.countP Moment.drops

namespace Account

theorem takenDrops_cons_of_not (history : List Moment) {moment : Moment}
    (outside : moment.beginsFlush = false) :
    takenDrops (moment :: history) = takenDrops history := by
  rw [takenDrops, List.find?_cons_of_neg (by rw [outside]; exact Bool.false_ne_true)]
  rfl

theorem takenDrops_cons_of_begins {moment : Moment} (begins : moment.beginsFlush = true) :
    takenDrops (moment :: history) = moment.before.collector.store.dropped := by
  rw [takenDrops, List.find?_cons_of_pos begins]
  rfl

theorem countP_cons_drops (moment : Moment) (history : List Moment) :
    (moment :: history).countP Moment.drops =
      history.countP Moment.drops + moment.drops.toNat := by
  rw [List.countP_cons]
  cases moment.drops with
  | false => rfl
  | true => rfl

/-- A session starts, while a flush may be under way. -/
theorem starts (account : Account history machine)
    (starts : Moment.startsSession ⟨machine, move, progress, after⟩ = true)
    (emptied : after.collector.store.dropped = 0)
    (other : Moment.beginsFlush ⟨machine, move, progress, after⟩ = false)
    (flushing_eq : after.collector.flushing = machine.collector.flushing)
    (cycles_eq : after.cycles = machine.cycles) :
    Account (⟨machine, move, progress, after⟩ :: history) after := by
  have bounded := account.bounded
  have taken_eq := takenDrops_cons_of_not history other
  refine ⟨fun _ => ?_, fun _ begun => ?_, fun cycle member => ?_, ?_⟩
  · simp [reportedSince, droppedSince, carriedSince, starts, emptied]
  · simp [begunSince, starts] at begun
  · rw [taken_eq]
    exact account.cycles cycle (cycles_eq ▸ member)
  · rw [countP_cons_drops, emptied, flushing_eq, taken_eq]
    omega

/-- A moment of a session that has nothing to do with a flush may drop an allocation. -/
theorem counts (account : Account history machine)
    (inside : Moment.startsSession ⟨machine, move, progress, after⟩ = false)
    (counted : after.collector.store.dropped = machine.collector.store.dropped +
      (Moment.drops ⟨machine, move, progress, after⟩).toNat)
    (other : Moment.beginsFlush ⟨machine, move, progress, after⟩ = false)
    (outside : progress.Outside)
    (flushing_eq : after.collector.flushing = machine.collector.flushing)
    (cycles_eq : after.cycles = machine.cycles) :
    Account (⟨machine, move, progress, after⟩ :: history) after := by
  obtain ⟨reports_nothing, no_failure⟩ :=
    Moment.reports_nothing ⟨machine, move, progress, after⟩ outside
  have bounded := account.bounded
  have taken_eq := takenDrops_cons_of_not history other
  have begun_eq : begunSince (⟨machine, move, progress, after⟩ :: history) =
      begunSince history := by simp [begunSince, inside, other]
  have reported_eq : reportedSince (⟨machine, move, progress, after⟩ :: history) =
      reportedSince history := by simp [reportedSince, inside, reports_nothing]
  have dropped_eq : droppedSince (⟨machine, move, progress, after⟩ :: history) =
      droppedSince history + (Moment.drops ⟨machine, move, progress, after⟩).toNat := by
    simp [droppedSince, inside]
  have carried_eq : carriedSince (⟨machine, move, progress, after⟩ :: history) =
      carriedSince history := by simp [carriedSince, inside, no_failure]
  refine ⟨fun idle => ?_, fun flushing begun => ?_, fun cycle member => ?_, ?_⟩
  · rw [begun_eq, flushing_eq] at idle
    have before := account.settled idle
    rw [reported_eq, dropped_eq, carried_eq, counted]
    omega
  · rw [begun_eq] at begun
    have before := account.taken (flushing_eq ▸ flushing) begun
    rw [reported_eq, dropped_eq, carried_eq, counted, taken_eq]
    omega
  · rw [taken_eq]
    exact account.cycles cycle (cycles_eq ▸ member)
  · rw [countP_cons_drops, counted, flushing_eq, taken_eq]
    omega

theorem passes (account : Account history machine)
    (entry : Moment.Entry ⟨machine, move, progress, after⟩)
    (other : Moment.beginsFlush ⟨machine, move, progress, after⟩ = false)
    (outside : progress.Outside)
    (flushing_eq : after.collector.flushing = machine.collector.flushing)
    (cycles_eq : after.cycles = machine.cycles)
    (few : (⟨machine, move, progress, after⟩ :: history).countP Moment.drops ≤ Store.maxDropped) :
    Account (⟨machine, move, progress, after⟩ :: history) after := by
  have bounded := account.bounded
  rw [countP_cons_drops] at few
  cases entry with
  | starts starts emptied => exact account.starts starts emptied other flushing_eq cycles_eq
  | drops inside drops counted =>
      rw [drops, Bool.toNat_true] at few
      -- The counter wraps around only after more drops than the run has had.
      have small : machine.collector.store.dropped + 1 < Store.maxDropped + 1 := by omega
      have bumped : after.collector.store.dropped = machine.collector.store.dropped + 1 :=
        counted.trans (Nat.mod_eq_of_lt small)
      refine account.counts inside ?_ other outside flushing_eq cycles_eq
      rw [bumped, drops]
      rfl
  | other inside kept unchanged =>
      refine account.counts inside ?_ other outside flushing_eq cycles_eq
      rw [kept]
      exact unchanged

/--
A moment of a flush with `pending` drops at its beginning; `cycle` has the drops that the flush has
taken.  The account before it is `settled` or `taken` as the flush began before the session or in
it.
-/
structure Underway (history : List Moment) (moment : Moment) (cycle : Cycle) (pending : Nat) :
    Prop where
  inside : moment.startsSession = false
  kept : moment.drops = false
  taken_eq : cycle.dropped = takenDrops (moment :: history)
  bounded : pending + cycle.dropped ≤ history.countP Moment.drops
  settled : begunSince (moment :: history) = false →
    reportedSince history + pending = droppedSince history + carriedSince history
  taken : begunSince (moment :: history) = true →
    reportedSince history + pending + cycle.dropped = droppedSince history + carriedSince history

section Underway

variable {moment : Moment} {cycle : Cycle} {pending : Nat}

theorem Underway.droppedSince_eq (underway : Underway history moment cycle pending) :
    droppedSince (moment :: history) = droppedSince history := by
  simp [droppedSince, underway.inside, underway.kept]

theorem Underway.countP_eq (underway : Underway history moment cycle pending) :
    (moment :: history).countP Moment.drops = history.countP Moment.drops := by
  rw [List.countP_cons, underway.kept]
  rfl

theorem Underway.reportedSince_eq (underway : Underway history moment cycle pending)
    (silent : moment.reportedDrops = 0) :
    reportedSince (moment :: history) = reportedSince history := by
  simp [reportedSince, underway.inside, silent]

theorem Underway.carriedSince_eq (underway : Underway history moment cycle pending)
    (unfailing : moment.failsFlush = false) :
    carriedSince (moment :: history) = carriedSince history := by
  simp [carriedSince, underway.inside, unfailing]

theorem Underway.waits (underway : Underway history moment cycle pending)
    (silent : moment.reportedDrops = 0) (unfailing : moment.failsFlush = false)
    (flushing : after.collector.flushing = true)
    (pending_eq : after.collector.store.dropped = pending)
    (cycles : ∀ own ∈ after.cycles, own.dropped = takenDrops (moment :: history)) :
    Account (moment :: history) after := by
  have reported_eq := underway.reportedSince_eq silent
  have carried_eq := underway.carriedSince_eq unfailing
  refine ⟨fun idle => ?_, fun _ begun => ?_, cycles, ?_⟩
  · rw [reported_eq, underway.droppedSince_eq, carried_eq, pending_eq]
    exact underway.settled (idle flushing)
  · rw [reported_eq, underway.droppedSince_eq, carried_eq, pending_eq, ← underway.taken_eq]
    exact underway.taken begun
  · rw [flushing, if_pos rfl, pending_eq, ← underway.taken_eq, underway.countP_eq]
    exact underway.bounded

theorem Underway.reports (underway : Underway history moment cycle pending)
    (reports : moment.reportedDrops = cycle.dropped) (unfailing : moment.failsFlush = false)
    (idle : after.collector.flushing = false)
    (pending_eq : after.collector.store.dropped = pending)
    (cycles : ∀ own ∈ after.cycles, own.dropped = takenDrops (moment :: history)) :
    Account (moment :: history) after := by
  have bounded := underway.bounded
  refine ⟨fun _ => ?_, fun flushing => ?_, cycles, ?_⟩
  · rw [underway.droppedSince_eq, underway.carriedSince_eq unfailing, pending_eq, reportedSince,
      underway.inside, if_neg Bool.false_ne_true, reports]
    cases begun : begunSince (moment :: history) with
    | false =>
        have before := underway.settled begun
        rw [if_neg Bool.false_ne_true]
        omega
    | true =>
        have before := underway.taken begun
        rw [if_pos rfl]
        omega
  · rw [idle] at flushing
    cases flushing
  · rw [idle, pending_eq, underway.countP_eq, if_neg Bool.false_ne_true]
    omega

theorem Underway.fails (underway : Underway history moment cycle pending)
    (silent : moment.reportedDrops = 0) (fails : moment.failsFlush = true)
    (idle : after.collector.flushing = false)
    (restored : after.collector.store.dropped = pending + cycle.dropped)
    (cycles : ∀ own ∈ after.cycles, own.dropped = takenDrops (moment :: history)) :
    Account (moment :: history) after := by
  have bounded := underway.bounded
  refine ⟨fun _ => ?_, fun flushing => ?_, cycles, ?_⟩
  · rw [underway.droppedSince_eq, underway.reportedSince_eq silent, restored, carriedSince,
      underway.inside, if_neg Bool.false_ne_true, fails, ← underway.taken_eq]
    cases begun : begunSince (moment :: history) with
    | false =>
        have before := underway.settled begun
        rw [Bool.not_false, Bool.and_self, if_pos rfl]
        omega
    | true =>
        have before := underway.taken begun
        rw [Bool.not_true, Bool.and_false, if_neg Bool.false_ne_true]
        omega
  · rw [idle] at flushing
    cases flushing
  · rw [idle, restored, underway.countP_eq, if_neg Bool.false_ne_true]
    omega

end Underway

theorem carries {moment : Moment} {cycle : Cycle} {included : List Handle}
    {live : List (Identity × Handle)} {pending : Nat} {outer : List Suspended}
    (underway : Underway history moment cycle pending)
    (carried : Collector.Carries cycle included live pending after.collector moment.progress)
    (few : history.countP Moment.drops ≤ Store.maxDropped)
    (outside : outer.filterMap Suspended.cycle? = [])
    (waiting_eq : after.waiting = moment.progress.onto outer) :
    Account (moment :: history) after := by
  cases progress_eq : moment.progress with
  | waiting suspended =>
      rw [progress_eq] at carried waiting_eq
      obtain ⟨flushing, -, -, -, pending_eq, -, skipped, within⟩ := carried
      have cycles_eq : after.cycles = [{ cycle with skipped }] := by
        rw [Machine.cycles, waiting_eq, Progress.onto, List.filterMap_cons_some within, outside]
      refine underway.waits ?_ ?_ flushing pending_eq fun own member => ?_
      · rw [Moment.reportedDrops, progress_eq]
      · rw [Moment.failsFlush, progress_eq]
      · rw [cycles_eq, List.mem_singleton] at member
        rw [member]
        exact underway.taken_eq
  | replied reply =>
      rw [progress_eq] at carried waiting_eq
      obtain ⟨idle, -, -, -, outcome⟩ := carried
      have cycles_eq : after.cycles = [] := by
        rw [Machine.cycles, waiting_eq]
        exact outside
      have cycles (own : Cycle) (member : own ∈ after.cycles) :
          own.dropped = takenDrops (moment :: history) := by
        rw [cycles_eq] at member
        cases member
      rcases outcome with ⟨profile, rfl, profile_eq, pending_eq⟩ | ⟨cause, rfl, pending_eq⟩
      · refine underway.reports ?_ ?_ idle pending_eq cycles
        · rw [← profile_eq, Moment.reportedDrops, progress_eq]
        · rw [Moment.failsFlush, progress_eq]
      · refine underway.fails ?_ ?_ idle ?_ cycles
        · rw [Moment.reportedDrops, progress_eq]
        · rw [Moment.failsFlush, progress_eq]
        · have bounded := underway.bounded
          rw [pending_eq, Nat.min_eq_left (by omega)]

/-- Every moment of a run keeps the account. -/
theorem step (account : Account history machine) (sound : machine.Sound)
    (stepped : machine.step? move = some (progress, after))
    (few : (⟨machine, move, progress, after⟩ :: history).countP Moment.drops ≤ Store.maxDropped) :
    Account (⟨machine, move, progress, after⟩ :: history) after := by
  have few_before : history.countP Moment.drops ≤ Store.maxDropped := by
    rw [List.countP_cons] at few
    omega
  cases sound.passage stepped with
  | passes foreign passed outside cycles_eq waiting_subset =>
      exact account.passes (sound.entry_of_foreign foreign stepped) foreign.beginsFlush_eq outside
        passed.flushing_eq cycles_eq few
  | begins move_eq idle cycles_eq went waiting_eq =>
      subst move_eq
      rename_i clock
      have begins : Moment.beginsFlush ⟨machine, .call (.flush clock), progress, after⟩ = true := by
        simp [Moment.beginsFlush, idle]
      have begun :
          begunSince (⟨machine, .call (.flush clock), progress, after⟩ :: history) = true := by
        simp [begunSince, Moment.startsSession, begins]
      have bounded := account.bounded
      rw [idle, if_neg Bool.false_ne_true] at bounded
      have settled := account.settled (by simp [idle])
      have carried := sound.carries_of_flush idle went
      refine carries ?_ carried few_before cycles_eq waiting_eq
      exact {
        inside := rfl
        kept := Machine.drops_eq_false (by cases progress <;> simp [Moment.allocated?])
        taken_eq := (takenDrops_cons_of_begins begins).symm
        bounded := by simpa using bounded
        settled := by simp [begun]
        taken := fun _ => by simpa using settled }
  | proceeds move_eq before_eq inside cycles_eq flushing went waiting_eq =>
      subst move_eq
      rename_i host suspended cycle outer
      have member : cycle ∈ machine.cycles :=
        List.mem_filterMap.mpr ⟨suspended, before_eq ▸ List.mem_cons_self .., inside⟩
      have bounded := account.bounded
      rw [flushing, if_pos rfl] at bounded
      have taken_eq := account.cycles cycle member
      have begun_eq : begunSince (⟨machine, .answer host, progress, after⟩ :: history) =
          begunSince history := by simp [begunSince, Moment.startsSession, Moment.beginsFlush]
      have carried := sound.carries_of_resume before_eq inside flushing went
      refine carries ?_ carried few_before cycles_eq waiting_eq
      exact {
        inside := rfl
        kept := by
          refine Machine.drops_eq_false ?_
          cases suspended <;> cases progress <;> simp_all [Moment.allocated?, Suspended.cycle?]
        taken_eq := taken_eq.trans (takenDrops_cons_of_not history rfl).symm
        bounded := taken_eq ▸ bounded
        settled := fun begun => account.settled fun _ => begun_eq ▸ begun
        taken := fun begun => by
          rw [taken_eq]
          exact account.taken flushing (begun_eq ▸ begun) }

end Account

theorem account_of_run (run : Run settings history machine)
    (few : history.countP Moment.drops ≤ Store.maxDropped) : Account history machine := by
  induction run with
  | created created =>
      unfold Collector.create at created
      split at created
      · cases created
        exact ⟨fun _ => rfl, fun flushing => (nomatch flushing), fun _ member => (nomatch member),
          Nat.le_refl _⟩
      · cases created
  | moved run stepped ih =>
      have few_before := few
      rw [List.countP_cons] at few_before
      exact (ih (by omega)).step run.sound stepped few

/-! ## The bound on the count -/

theorem Moment.Entry.dropped_le {moment : Moment} (entry : moment.Entry)
    (bounded : moment.before.collector.store.dropped ≤ Store.maxDropped) :
    moment.after.collector.store.dropped ≤ Store.maxDropped := by
  cases entry with
  | starts starts emptied => exact emptied ▸ Nat.zero_le _
  | drops inside drops counted =>
      rw [counted]
      exact Nat.le_of_lt_succ (Nat.mod_lt _ (Nat.succ_pos _))
  | other inside kept unchanged => exact unchanged ▸ bounded

theorem Collector.Carries.dropped_le {cycle : Cycle} {included : List Handle}
    {live : List (Identity × Handle)} {pending : Nat} {last : Collector}
    (carries : Collector.Carries cycle included live pending last progress)
    (bounded : pending ≤ Store.maxDropped) : last.store.dropped ≤ Store.maxDropped := by
  cases progress with
  | waiting suspended =>
      obtain ⟨-, -, -, -, pending_eq, -⟩ := carries
      exact pending_eq ▸ bounded
  | replied reply =>
      obtain ⟨-, -, -, -, ⟨-, -, -, pending_eq⟩ | ⟨-, -, pending_eq⟩⟩ := carries
      · exact pending_eq ▸ bounded
      · exact pending_eq ▸ Nat.min_le_right _ _

/-- However many allocations are dropped, their count is a 64-bit number. -/
theorem dropped_le_of_run (run : Run settings history machine) :
    machine.collector.store.dropped ≤ Store.maxDropped := by
  induction run with
  | created created =>
      unfold Collector.create at created
      split at created
      · cases created
        exact Nat.zero_le _
      · cases created
  | moved run stepped bounded =>
      have sound := run.sound
      cases sound.passage stepped with
      | begins move_eq idle cycles_eq went waiting_eq =>
          exact (sound.carries_of_flush idle went).dropped_le (Nat.zero_le _)
      | proceeds move_eq before_eq inside cycles_eq flushing went waiting_eq =>
          exact (sound.carries_of_resume before_eq inside flushing went).dropped_le bounded
      | passes foreign passed outside cycles_eq waiting_subset =>
          exact (sound.entry_of_foreign foreign stepped).dropped_le bounded

/-! ## What is carried over -/

/--
Nothing is carried over unless a flush that took drops in an earlier session fails in this one.
-/
theorem carriedSince_eq_zero_iff (history : List Moment) :
    carriedSince history = 0 ↔ ∀ later moment earlier, history = later ++ moment :: earlier →
      (∀ other ∈ later ++ [moment], other.startsSession = false) → moment.failsFlush = true →
      begunSince (moment :: earlier) = false → takenDrops (moment :: earlier) = 0 := by
  induction history with
  | nil => simp [carriedSince]
  | cons latest rest ih =>
      cases starts : latest.startsSession with
      | true =>
          refine iff_of_true (by simp [carriedSince, starts]) ?_
          intro later moment earlier split inside
          have outside : latest.startsSession = false := by
            cases later with
            | nil =>
                cases split
                exact inside _ (by simp)
            | cons first later =>
                cases split
                exact inside _ (by simp)
          rw [starts] at outside
          cases outside
      | false =>
          rw [carriedSince, starts, if_neg Bool.false_ne_true, Nat.add_eq_zero_iff, ih]
          constructor
          · rintro ⟨before, now⟩ later moment earlier split inside fails foreign
            cases later with
            | nil =>
                cases split
                simpa [fails, foreign] using now
            | cons first later =>
                cases split
                exact before later moment earlier rfl
                  (fun other member => inside other (List.mem_cons_of_mem _ member)) fails foreign
          · intro none_carried
            constructor
            · intro later moment earlier split inside
              refine none_carried (latest :: later) moment earlier (by rw [split]; rfl) ?_
              exact List.forall_mem_cons.mpr ⟨starts, inside⟩
            · cases carries : latest.failsFlush && !begunSince (latest :: rest) with
              | false => rfl
              | true =>
                  rw [Bool.and_eq_true, Bool.not_eq_true'] at carries
                  exact none_carried [] latest rest rfl (by simpa using starts) carries.1 carries.2

/--
Between flushes the drops that were reported in the session and those that are pending are the
drops of the session and those carried over into it.  So they are the drops of the session exactly
if no flush that had taken drops in an earlier session failed in this one.
-/
theorem drops_of_session (run : Run settings history machine)
    (idle : machine.collector.flushing = false)
    (few : history.countP Moment.drops ≤ Store.maxDropped) :
    reportedSince history + machine.collector.store.dropped =
        droppedSince history + carriedSince history ∧
      (reportedSince history + machine.collector.store.dropped = droppedSince history ↔
        ∀ later moment earlier, history = later ++ moment :: earlier →
          (∀ other ∈ later ++ [moment], other.startsSession = false) →
          moment.failsFlush = true → begunSince (moment :: earlier) = false →
          takenDrops (moment :: earlier) = 0) := by
  have balance := (account_of_run run few).settled (by simp [idle])
  refine ⟨balance, ?_⟩
  rw [← carriedSince_eq_zero_iff, balance, Nat.add_eq_left]

/--
With room for one sample the second allocation is dropped.  While a flush has taken that drop along
the session is stopped and another one started, and then the profile turns out to be too large.
-/
def restartedWhileSymbolized : List Move :=
  let answer := Move.answer (.uniform [⟨"work", "work.rb", 7⟩])
  [.call (.start 0), answer, .call (.allocate ⟨1⟩ [] 0), answer, .call (.allocate ⟨2⟩ [] 0),
    .call (.flush ⟨0, 0⟩), .call .stop, answer, .call (.start 1), answer, answer]

theorem drops_of_restartedWhileSymbolized :
    ∃ history machine,
      replay { sampleRate := 1, maxSamples := 1, compression := .none, maxProfileBytes := 1 }
        restartedWhileSymbolized = some (history, machine) ∧
      machine.collector.flushing = false ∧ history.countP Moment.drops ≤ Store.maxDropped ∧
      reportedSince history + machine.collector.store.dropped =
        droppedSince history + carriedSince history ∧
      carriedSince history = 1 := by
  obtain ⟨history, machine, replayed, checked⟩ := exists_of_replay
    { sampleRate := 1, maxSamples := 1, compression := .none, maxProfileBytes := 1 }
    restartedWhileSymbolized
    (fun run => !run.2.collector.flushing &&
      decide (run.1.countP Moment.drops ≤ Store.maxDropped) &&
      decide (carriedSince run.1 = 1)) (by decide +kernel)
  simp only [Bool.and_eq_true, Bool.not_eq_true', decide_eq_true_eq] at checked
  obtain ⟨⟨idle, few⟩, carried⟩ := checked
  exact ⟨history, machine, replayed, idle, few,
    (drops_of_session (Run.of_replay replayed) idle few).1, carried⟩

/-- In that run the new session has a pending drop although none of its allocations was dropped. -/
theorem drop_crosses_sessions :
    ∃ history machine,
      Run { sampleRate := 1, maxSamples := 1, compression := .none, maxProfileBytes := 1 }
        history machine ∧
      machine.collector.flushing = false ∧ droppedSince history = 0 ∧
      reportedSince history = 0 ∧ machine.collector.store.dropped = 1 := by
  obtain ⟨history, machine, replayed, checked⟩ := exists_of_replay
    { sampleRate := 1, maxSamples := 1, compression := .none, maxProfileBytes := 1 }
    restartedWhileSymbolized
    (fun run => !run.2.collector.flushing && decide (droppedSince run.1 = 0) &&
      decide (reportedSince run.1 = 0) && decide (run.2.collector.store.dropped = 1))
    (by decide +kernel)
  simp only [Bool.and_eq_true, Bool.not_eq_true', decide_eq_true_eq] at checked
  obtain ⟨⟨⟨idle, none_dropped⟩, none_reported⟩, pending⟩ := checked
  exact ⟨history, machine, Run.of_replay replayed, idle, none_dropped, none_reported, pending⟩

end HeapSampler
