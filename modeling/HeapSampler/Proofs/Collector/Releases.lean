import Mathlib
import HeapSampler.Proofs.Collector.Runs

/-!
# Releases during a flush

A flush exports the samples of its snapshot that were live when their size arrived.  A sample that
is released before that is left out.  One that is released after it, while the flush still goes
on, is exported all the same.
-/

namespace HeapSampler

namespace Moment

/-- The sample whose size has arrived while it was live. -/
def measured? (moment : Moment) : Option Handle :=
  match moment.move, moment.before.waiting with
  | .answer host, suspended :: _ =>
      moment.before.collector.measured? suspended (host.answer suspended.request)
  | _, _ => none

def releases (moment : Moment) (handle : Handle) : Bool :=
  (moment.before.collector.store.sample? handle).any (fun sample => !sample.isReleased) &&
    (moment.after.collector.store.sample? handle).any (fun sample => sample.isReleased)

end Moment

def latestSnapshot (history : List Moment) : List Handle :=
  ((history.find? Moment.beginsFlush).map fun moment =>
    moment.before.collector.store.live.map Prod.snd).getD []

def latestMeasured : List Moment → List Handle
  | [] => []
  | moment :: earlier =>
      if moment.beginsFlush then [] else moment.measured?.toList ++ latestMeasured earlier

def releasedLate : List Moment → List Handle
  | [] => []
  | moment :: earlier =>
      if moment.beginsFlush then []
      else (latestMeasured earlier).filter moment.releases ++ releasedLate earlier

variable {settings : Settings} {history : List Moment} {machine after : Machine} {move : Move}
  {progress : Progress} {handle : Handle}

theorem releasedLate_subset (history : List Moment) :
    releasedLate history ⊆ latestMeasured history := by
  induction history with
  | nil => exact List.Subset.refl _
  | cons moment earlier ih =>
      rw [releasedLate, latestMeasured]
      split
      · exact List.Subset.refl _
      · intro handle member
        refine List.mem_append_right _ ?_
        rcases List.mem_append.mp member with now | before
        · exact (List.mem_filter.mp now).1
        · exact ih before

/-- A sample that an owner has is released exactly if it is not live. -/
theorem Machine.Sound.isReleased_iff (sound : machine.Sound) {sample : Sample}
    (found : machine.collector.store.sample? handle = some sample) :
    sample.isReleased = true ↔ handle ∉ machine.collector.store.live.map Prod.snd := by
  rw [sound.balanced.released_iff found, List.append_nil]
  rfl

theorem releases_eq_false (sound : machine.Sound) (sound_after : after.Sound)
    (live_eq : after.collector.store.live = machine.collector.store.live) :
    Moment.releases ⟨machine, move, progress, after⟩ handle = false := by
  rw [← Bool.not_eq_true, Moment.releases, Bool.and_eq_true, Option.any_eq_true, Option.any_eq_true]
  rintro ⟨⟨old, old_found, unreleased⟩, sample, found, released⟩
  rw [sound_after.isReleased_iff found, live_eq, ← sound.isReleased_iff old_found] at released
  rw [released] at unreleased
  cases unreleased

structure Traced (history : List Moment) (machine : Machine) : Prop where
  snapshot_eq : ∀ suspended ∈ machine.waiting, ∀ cycle, suspended.cycle? = some cycle →
    cycle.snapshot = latestSnapshot history
  included_eq : ∀ suspended ∈ machine.waiting, ∀ cycle, suspended.cycle? = some cycle →
    suspended.included = latestMeasured history
  late_iff : machine.collector.flushing = true → ∀ handle ∈ latestMeasured history,
    (handle ∉ machine.collector.store.live.map Prod.snd ↔ handle ∈ releasedLate history)

theorem Suspended.Sound.included_subset {suspended : Suspended} {inventory : Inventory}
    {cycle : Cycle} (sound : suspended.Sound inventory) (inside : suspended.cycle? = some cycle) :
    suspended.included.reverse.Sublist cycle.snapshot := by
  cases suspended with
  | symbolizing => exact List.nil_sublist _
  | measuring own included handle identity rest =>
      cases inside
      obtain ⟨-, passed, split, ordered⟩ := sound
      rw [split]
      exact ordered.trans (List.sublist_append_left _ _)
  | capturing => cases inside
  | subscribing => cases inside
  | unsubscribing => cases inside

/-- The sample that an answer adds is live, and it was not among those to be exported. -/
theorem Machine.Sound.of_measured? (sound : machine.Sound) {suspended : Suspended}
    {answer : suspended.request.Answer} (waits : suspended ∈ machine.waiting)
    (measured : machine.collector.measured? suspended answer = some handle) :
    handle ∈ machine.collector.store.live.map Prod.snd ∧ handle ∉ suspended.included := by
  cases suspended with
  | measuring cycle included own identity rest =>
      obtain ⟨nodup, passed, split, ordered⟩ := sound.waiting _ waits
      simp only [Collector.measured?] at measured
      split at measured
      · rename_i sample size found
        split at measured
        · cases measured
        · rename_i unreleased
          cases measured
          refine ⟨?_, fun listed => ?_⟩
          · rw [sound.isReleased_iff found, not_not] at unreleased
            exact unreleased
          · rw [split, List.nodup_append] at nodup
            have passed_mem := ordered.subset (List.mem_reverse.mpr listed)
            exact nodup.2.2 handle passed_mem handle (List.mem_cons_self ..) rfl
      · cases measured
  | symbolizing => cases measured
  | capturing => cases measured
  | subscribing => cases measured
  | unsubscribing => cases measured

/-- With the sample that an answer adds the order is still that of the snapshot. -/
theorem Machine.Sound.measured_sublist (sound : machine.Sound) {suspended : Suspended}
    {cycle : Cycle}
    (waits : suspended ∈ machine.waiting) (inside : suspended.cycle? = some cycle)
    (answer : suspended.request.Answer) :
    ((machine.collector.measured? suspended answer).toList ++
      suspended.included).reverse.Sublist cycle.snapshot := by
  have sublist := (sound.waiting suspended waits).included_subset inside
  cases suspended with
  | measuring own included handle identity rest =>
      cases inside
      obtain ⟨-, passed, split, ordered⟩ := sound.waiting _ waits
      simp only [Collector.measured?, Suspended.included] at sublist ⊢
      split
      · split
        · exact sublist
        · rw [Option.toList_some, List.singleton_append, List.reverse_cons, split]
          exact ordered.append (List.singleton_sublist.mpr (List.mem_cons_self ..))
      · exact sublist
  | symbolizing => exact List.nil_sublist _
  | capturing => cases inside
  | subscribing => cases inside
  | unsubscribing => cases inside

/-- While a flush is under way some call waits for it. -/
theorem Machine.Sound.exists_waiting (sound : machine.Sound)
    (flushing : machine.collector.flushing = true) :
    ∃ suspended cycle, suspended ∈ machine.waiting ∧ suspended.cycle? = some cycle ∧
      cycle.snapshot ⊆ machine.held := by
  have length_eq := sound.cycles_length
  rw [flushing, Bool.toNat_true, List.length_eq_one_iff] at length_eq
  obtain ⟨cycle, cycles_eq⟩ := length_eq
  have member : cycle ∈ machine.cycles := by rw [cycles_eq]; exact List.mem_cons_self ..
  obtain ⟨suspended, waits, inside⟩ := List.mem_filterMap.mp member
  refine ⟨suspended, cycle, waits, inside, fun handle listed => ?_⟩
  exact List.mem_flatMap.mpr ⟨cycle, member, listed⟩

/-- Of calls that wait only the innermost can belong to a flush that has just had its turn. -/
theorem Progress.eq_waiting_of_mem_onto (progress : Progress) {outer : List Suspended}
    {suspended : Suspended} {cycle : Cycle} (outside : outer.filterMap Suspended.cycle? = [])
    (member : suspended ∈ progress.onto outer) (inside : suspended.cycle? = some cycle) :
    progress = .waiting suspended := by
  have not_outer : suspended ∉ outer := by
    intro listed
    rw [List.filterMap_eq_nil_iff.mp outside suspended listed] at inside
    cases inside
  cases progress with
  | replied reply => exact absurd member not_outer
  | waiting next =>
      rcases List.mem_cons.mp member with rfl | listed
      · rfl
      · exact absurd listed not_outer

/-- What a flush has included so far is with the call that waits for it. -/
theorem Collector.Carries.of_mem_onto {cycle own : Cycle} {included : List Handle}
    {live : List (Identity × Handle)} {pending : Nat} {outer : List Suspended}
    {suspended : Suspended} {next : Collector}
    (carries : Collector.Carries cycle included live pending next progress)
    (outside : outer.filterMap Suspended.cycle? = []) (member : suspended ∈ progress.onto outer)
    (inside : suspended.cycle? = some own) :
    own.snapshot = cycle.snapshot ∧ suspended.included = included := by
  rw [progress.eq_waiting_of_mem_onto outside member inside] at carries
  obtain ⟨-, -, -, -, -, included_eq, skipped, within⟩ := carries
  cases inside.symm.trans within
  exact ⟨rfl, included_eq⟩

theorem latestSnapshot_of_begins {moment : Moment} (begins : moment.beginsFlush = true) :
    latestSnapshot (moment :: history) = moment.before.collector.store.live.map Prod.snd := by
  rw [latestSnapshot, List.find?_cons_of_pos begins]
  rfl

theorem latestMeasured_of_begins {moment : Moment} (begins : moment.beginsFlush = true) :
    latestMeasured (moment :: history) = [] := by
  rw [latestMeasured, begins, if_pos rfl]

namespace Traced

theorem latestMeasured_subset (traced : Traced history machine) (sound : machine.Sound)
    (flushing : machine.collector.flushing = true) : latestMeasured history ⊆ machine.held := by
  obtain ⟨suspended, cycle, waits, inside, owned⟩ := sound.exists_waiting flushing
  intro handle member
  rw [← traced.included_eq suspended waits cycle inside] at member
  have sublist := (sound.waiting suspended waits).included_subset inside
  exact owned (sublist.subset (List.mem_reverse.mpr member))

theorem passes (traced : Traced history machine) (sound : machine.Sound) (sound_after : after.Sound)
    (other : Moment.beginsFlush ⟨machine, move, progress, after⟩ = false)
    (unmeasured : Moment.measured? ⟨machine, move, progress, after⟩ = none)
    (passed : machine.collector.Passes after.collector machine.held)
    (waiting_subset : ∀ suspended ∈ after.waiting,
      suspended ∈ machine.waiting ∨ suspended.cycle? = none) :
    Traced (⟨machine, move, progress, after⟩ :: history) after := by
  have measured_eq : latestMeasured (⟨machine, move, progress, after⟩ :: history) =
      latestMeasured history := by
    rw [latestMeasured, other, if_neg Bool.false_ne_true, unmeasured]
    rfl
  have snapshot_eq : latestSnapshot (⟨machine, move, progress, after⟩ :: history) =
      latestSnapshot history := by
    rw [latestSnapshot, List.find?_cons_of_neg (by rw [other]; exact Bool.false_ne_true)]
    rfl
  have kept {suspended : Suspended} {cycle : Cycle} (waits : suspended ∈ after.waiting)
      (inside : suspended.cycle? = some cycle) : suspended ∈ machine.waiting := by
    rcases waiting_subset suspended waits with before | outside
    · exact before
    · rw [outside] at inside
      cases inside
  refine ⟨fun suspended waits cycle inside => ?_, fun suspended waits cycle inside => ?_,
    fun flushing handle member => ?_⟩
  · rw [snapshot_eq]
    exact traced.snapshot_eq suspended (kept waits inside) cycle inside
  · rw [measured_eq]
    exact traced.included_eq suspended (kept waits inside) cycle inside
  · rw [measured_eq] at member
    rw [passed.flushing_eq] at flushing
    obtain ⟨old, sample, old_found, found, ages⟩ :=
      passed.ages handle (traced.latestMeasured_subset sound flushing member)
    have late := traced.late_iff flushing handle member
    rw [← sound.isReleased_iff old_found] at late
    rw [← sound_after.isReleased_iff found, releasedLate, other, if_neg Bool.false_ne_true,
      List.mem_append, List.mem_filter, ← late, and_iff_right member]
    have releases_eq : Moment.releases ⟨machine, move, progress, after⟩ handle =
        (!old.isReleased && sample.isReleased) := by
      simp [Moment.releases, old_found, found]
    rw [releases_eq]
    have stays := ages.stays_released
    cases before : old.isReleased with
    | true => simp [stays before]
    | false => simp

theorem answered (host : Host) (progress : Progress) (traced : Traced history machine)
    (sound : machine.Sound) (sound_after : after.Sound)
    {cycle : Cycle} {suspended : Suspended} {outer : List Suspended}
    (waiting : machine.waiting = suspended :: outer) (inside : suspended.cycle? = some cycle)
    (flushing : machine.collector.flushing = true)
    (live_eq : after.collector.store.live = machine.collector.store.live) :
    latestMeasured (⟨machine, .answer host, progress, after⟩ :: history) =
        (machine.collector.measured? suspended (host.answer suspended.request)).toList ++
          suspended.included ∧
      latestSnapshot (⟨machine, .answer host, progress, after⟩ :: history) = cycle.snapshot ∧
      ∀ handle ∈ latestMeasured (⟨machine, .answer host, progress, after⟩ :: history),
        (handle ∉ machine.collector.store.live.map Prod.snd ↔
          handle ∈ releasedLate (⟨machine, .answer host, progress, after⟩ :: history)) := by
  have waits : suspended ∈ machine.waiting := waiting ▸ List.mem_cons_self ..
  have measured_eq : latestMeasured (⟨machine, .answer host, progress, after⟩ :: history) =
      (machine.collector.measured? suspended (host.answer suspended.request)).toList ++
        suspended.included := by
    rw [traced.included_eq suspended waits cycle inside, latestMeasured, Moment.measured?, waiting]
    rfl
  have late_eq : releasedLate (⟨machine, .answer host, progress, after⟩ :: history) =
      releasedLate history := by
    have none_now : (latestMeasured history).filter
        (Moment.releases ⟨machine, .answer host, progress, after⟩) = [] := by
      refine List.filter_eq_nil_iff.mpr fun handle _ => ?_
      rw [releases_eq_false sound sound_after live_eq]
      exact Bool.false_ne_true
    rw [releasedLate, none_now]
    rfl
  refine ⟨measured_eq, (traced.snapshot_eq suspended waits cycle inside).symm,
    fun handle member => ?_⟩
  rw [late_eq]
  rw [measured_eq, List.mem_append] at member
  rcases member with now | before
  · obtain ⟨listed, fresh⟩ := sound.of_measured? waits (Option.mem_toList.mp now)
    refine iff_of_false (not_not.mpr listed) fun late => fresh ?_
    rw [traced.included_eq suspended waits cycle inside]
    exact releasedLate_subset history late
  · rw [traced.included_eq suspended waits cycle inside] at before
    exact traced.late_iff flushing handle before

theorem proceeds (traced : Traced history machine) (sound : machine.Sound)
    (sound_after : after.Sound)
    {cycle : Cycle} {suspended : Suspended} {outer : List Suspended} {host : Host}
    {pending : Nat} (waiting : machine.waiting = suspended :: outer)
    (inside : suspended.cycle? = some cycle) (outside : outer.filterMap Suspended.cycle? = [])
    (flushing : machine.collector.flushing = true)
    (carries : Collector.Carries cycle
      ((machine.collector.measured? suspended (host.answer suspended.request)).toList ++
        suspended.included)
      machine.collector.store.live pending after.collector progress)
    (waiting_eq : after.waiting = progress.onto outer)
    (live_eq : after.collector.store.live = machine.collector.store.live) :
    Traced (⟨machine, .answer host, progress, after⟩ :: history) after := by
  obtain ⟨measured_eq, snapshot_eq, late_iff⟩ := answered host progress traced
    sound sound_after waiting inside flushing live_eq
  refine ⟨fun other member own within => ?_, fun other member own within => ?_,
    fun _ handle member => ?_⟩
  · rw [snapshot_eq]
    exact (carries.of_mem_onto outside (waiting_eq ▸ member) within).1
  · rw [measured_eq]
    exact (carries.of_mem_onto outside (waiting_eq ▸ member) within).2
  · rw [live_eq]
    exact late_iff handle member

theorem step (traced : Traced history machine) (sound : machine.Sound)
    (stepped : machine.step? move = some (progress, after)) :
    Traced (⟨machine, move, progress, after⟩ :: history) after := by
  have sound_after := sound.step stepped
  cases sound.passage stepped with
  | passes foreign passed outside cycles_eq waiting_subset =>
      refine traced.passes sound sound_after foreign.beginsFlush_eq ?_ passed waiting_subset
      cases foreign with
      | call passing => rfl
      | rehash => rfl
      | @answer host suspended outer waiting outside =>
          cases suspended with
          | measuring => cases outside
          | symbolizing => cases outside
          | capturing => simp [Moment.measured?, waiting, Collector.measured?]
          | subscribing => simp [Moment.measured?, waiting, Collector.measured?]
          | unsubscribing => simp [Moment.measured?, waiting, Collector.measured?]
  | begins move_eq idle cycles_eq went waiting_eq =>
      subst move_eq
      rename_i clock
      have begins : Moment.beginsFlush ⟨machine, .call (.flush clock), progress, after⟩ = true := by
        simp [Moment.beginsFlush, idle]
      have carries := sound.carries_of_flush idle went
      refine ⟨fun other member own within => ?_, fun other member own within => ?_,
        fun _ handle member => ?_⟩
      · rw [latestSnapshot_of_begins begins]
        exact (carries.of_mem_onto cycles_eq (waiting_eq ▸ member) within).1
      · rw [latestMeasured_of_begins begins]
        exact (carries.of_mem_onto cycles_eq (waiting_eq ▸ member) within).2
      · rw [latestMeasured_of_begins begins] at member
        cases member
  | proceeds move_eq before_eq inside cycles_eq flushing went waiting_eq =>
      subst move_eq
      rename_i host suspended cycle outer
      have carries := sound.carries_of_resume before_eq inside flushing went
      exact traced.proceeds sound sound_after before_eq inside cycles_eq flushing carries waiting_eq
        carries.live_eq

end Traced

theorem traced_of_run (run : Run settings history machine) : Traced history machine := by
  induction run with
  | created created =>
      exact ⟨fun _ member => (nomatch member), fun _ member => (nomatch member),
        fun _ _ member => (nomatch member)⟩
  | moved run stepped ih => exact ih.step run.sound stepped

/-- What the end of a flush says about the moment at which the encoder was called. -/
theorem exported_of_finishes (encoding : Collector) (cycle : Cycle) {moment : Moment}
    {earlier : List Moment} {last : Collector} {live : List (Identity × Handle)}
    {result : Except FlushError ExportedProfile}
    (balanced : encoding.inventory.Balanced [] cycle.snapshot [])
    (live_eq : encoding.store.live = live)
    (snapshot_eq : latestSnapshot (moment :: earlier) = cycle.snapshot)
    (ordered : (latestMeasured (moment :: earlier)).reverse.Sublist cycle.snapshot)
    (late_iff : ∀ handle ∈ latestMeasured (moment :: earlier),
      (handle ∉ live.map Prod.snd ↔ handle ∈ releasedLate (moment :: earlier)))
    (finished : Collector.Finishes encoding cycle (latestMeasured (moment :: earlier)).reverse last
      (.replied (.flushed result))) :
    (∀ profile, result = .ok profile →
      encodeProfile encoding.tables
          ((latestMeasured (moment :: earlier)).reverse.filterMap encoding.store.sample?)
          cycle.options = .ok profile.bytes ∧
        profile.sampleCount = (latestMeasured (moment :: earlier)).length ∧
        profile.processedCount = (latestSnapshot (moment :: earlier)).length) ∧
    (∀ handle ∈ cycle.snapshot, ∃ sample, encoding.store.sample? handle = some sample ∧
      (sample.isReleased = true → (handle ∈ latestMeasured (moment :: earlier) ↔
        handle ∈ releasedLate (moment :: earlier)))) ∧
    ((∀ handle ∈ latestMeasured (moment :: earlier), ∀ sample,
        encoding.store.sample? handle = some sample → sample.isReleased = false) ↔
      releasedLate (moment :: earlier) = []) := by
  have released_iff {handle : Handle} {sample : Sample}
      (found : encoding.store.sample? handle = some sample) :
      sample.isReleased = true ↔ handle ∉ live.map Prod.snd := by
    rw [balanced.released_iff found, List.append_nil, ← live_eq]
    rfl
  have present {handle : Handle} (listed : handle ∈ cycle.snapshot) :
      ∃ sample, encoding.store.sample? handle = some sample :=
    balanced.exists_sample_iff.mpr (List.mem_append_right _ listed)
  refine ⟨?_, fun handle listed => ?_, ?_⟩
  · rintro profile rfl
    cases finished with
    | exported encoded released =>
        exact ⟨encoded, List.length_reverse, by rw [snapshot_eq]⟩
  · obtain ⟨sample, found⟩ := present listed
    refine ⟨sample, found, fun released => ⟨fun measured => ?_, fun late => ?_⟩⟩
    · exact (late_iff handle measured).mp ((released_iff found).mp released)
    · exact releasedLate_subset _ late
  · constructor
    · intro unreleased
      refine List.eq_nil_iff_forall_not_mem.mpr fun handle late => ?_
      have measured := releasedLate_subset _ late
      obtain ⟨sample, found⟩ := present (ordered.subset (List.mem_reverse.mpr measured))
      have released := (released_iff found).mpr ((late_iff handle measured).mpr late)
      rw [unreleased handle measured sample found] at released
      cases released
    · intro none_late handle measured sample found
      rw [← Bool.not_eq_true, released_iff found, late_iff handle measured, none_late]
      exact List.not_mem_nil

/--
What a flush exports.  The encoder gets the samples of the snapshot that were live when their sizes
arrived, in the order of the snapshot; all of the snapshot counts as processed.  A sample that is
released by then is among the exported ones exactly if it was released after it had been measured,
so none of those is exported exactly if no sample is released after it has been measured.
-/
theorem exported_of_flush {moment : Moment} {earlier : List Moment}
    (run : Run settings (moment :: earlier) machine) {result : Except FlushError ExportedProfile}
    (ended : moment.progress = .replied (.flushed result))
    (own : result ≠ .error .alreadyFlushing) :
    ∃ encoding cycle,
      cycle.snapshot = latestSnapshot (moment :: earlier) ∧
      (latestMeasured (moment :: earlier)).reverse.Sublist cycle.snapshot ∧
      Collector.Finishes encoding cycle (latestMeasured (moment :: earlier)).reverse
        machine.collector moment.progress ∧
      (∀ profile, result = .ok profile →
        encodeProfile encoding.tables
            ((latestMeasured (moment :: earlier)).reverse.filterMap encoding.store.sample?)
            cycle.options = .ok profile.bytes ∧
          profile.sampleCount = (latestMeasured (moment :: earlier)).length ∧
          profile.processedCount = (latestSnapshot (moment :: earlier)).length) ∧
      (∀ handle ∈ cycle.snapshot, ∃ sample, encoding.store.sample? handle = some sample ∧
        (sample.isReleased = true → (handle ∈ latestMeasured (moment :: earlier) ↔
          handle ∈ releasedLate (moment :: earlier)))) ∧
      ((∀ handle ∈ latestMeasured (moment :: earlier), ∀ sample,
          encoding.store.sample? handle = some sample → sample.isReleased = false) ↔
        releasedLate (moment :: earlier) = []) := by
  cases run with
  | moved run stepped =>
      rename_i before move progress
      obtain rfl : progress = .replied (.flushed result) := ended
      have sound := run.sound
      have sound_after := sound.step stepped
      cases sound.passage stepped with
      | passes source passed outside cycles_eq waiting_subset => exact absurd outside own
      | begins move_eq idle cycles_eq went waiting_eq =>
          subst move_eq
          rename_i clock
          have begins : Moment.beginsFlush
              ⟨before, .call (.flush clock), .replied (.flushed result), machine⟩ = true := by
            simp [Moment.beginsFlush, idle]
          obtain ⟨-, -, -, ⟨encoding, skipped, balanced, live_eq, finished⟩, -⟩ :=
            sound.carries_of_flush idle went
          have measured_eq : latestMeasured (_ :: earlier) = [] := latestMeasured_of_begins begins
          have snapshot_eq : latestSnapshot (_ :: earlier) = _ := latestSnapshot_of_begins begins
          rw [← measured_eq] at finished
          have ordered := List.nil_sublist (before.collector.store.live.map Prod.snd)
          rw [← List.reverse_nil, ← measured_eq] at ordered
          refine ⟨encoding, _, snapshot_eq.symm, ordered, finished, ?_⟩
          refine exported_of_finishes encoding _ balanced live_eq snapshot_eq ordered ?_ finished
          rw [measured_eq]
          exact fun _ member => absurd member List.not_mem_nil
      | proceeds move_eq before_eq inside cycles_eq flushing went waiting_eq =>
          subst move_eq
          rename_i host suspended cycle outer
          obtain ⟨-, -, live_after, ⟨encoding, skipped, balanced, live_eq, finished⟩, -⟩ :=
            sound.carries_of_resume before_eq inside flushing went
          obtain ⟨measured_eq, snapshot_eq, late_iff⟩ :=
            Traced.answered host (.replied (.flushed result)) (traced_of_run run) sound sound_after
              before_eq inside flushing live_after
          have ordered := sound.measured_sublist (before_eq ▸ List.mem_cons_self ..) inside
            (host.answer suspended.request)
          rw [← measured_eq] at ordered finished
          exact ⟨encoding, { cycle with skipped }, snapshot_eq.symm, ordered, finished,
            exported_of_finishes encoding { cycle with skipped } balanced live_eq snapshot_eq
              ordered late_iff finished⟩

/-- Of two objects the one measured first is released while the other one is measured. -/
def releasedAfterMeasured : List Move :=
  let answer := Move.answer (.uniform [])
  [.call (.start 0), answer, .call (.allocate ⟨1⟩ [] 0), answer, .call (.allocate ⟨2⟩ [] 0), answer,
    .call (.flush ⟨0, 0⟩), answer, answer, answer, .call (.release ⟨1⟩), answer]

def latestExport? : List Moment → Option ExportedProfile
  | ⟨_, _, .replied (.flushed (.ok profile)), _⟩ :: _ => some profile
  | _ => none

theorem progress_eq_of_latestExport? {profile : ExportedProfile}
    (found : latestExport? history = some profile) :
    ∃ moment earlier, history = moment :: earlier ∧
      moment.progress = .replied (.flushed (.ok profile)) := by
  unfold latestExport? at found
  split at found
  · cases found
    exact ⟨_, _, rfl, rfl⟩
  · cases found

theorem exported_of_releasedAfterMeasured :
    ∃ moment earlier machine profile,
      replay { sampleRate := 1, compression := .none } releasedAfterMeasured =
        some (moment :: earlier, machine) ∧
      moment.progress = .replied (.flushed (.ok profile)) ∧ profile.sampleCount = 2 ∧
      ∃ encoding cycle,
        Collector.Finishes encoding cycle (latestMeasured (moment :: earlier)).reverse
          machine.collector moment.progress ∧
        ∃ handle ∈ latestMeasured (moment :: earlier), ∃ sample,
          encoding.store.sample? handle = some sample ∧ sample.isReleased = true := by
  obtain ⟨history, machine, replayed, checked⟩ := exists_of_replay
    { sampleRate := 1, compression := .none } releasedAfterMeasured
    (fun run =>
      ((latestExport? run.1).any fun profile : ExportedProfile =>
        decide (profile.sampleCount = 2)) &&
      !(releasedLate run.1).isEmpty) (by decide +kernel)
  simp only [Bool.and_eq_true, Option.any_eq_true, decide_eq_true_eq, Bool.not_eq_true',
    List.isEmpty_eq_false_iff] at checked
  obtain ⟨⟨profile, exported, two⟩, late⟩ := checked
  obtain ⟨moment, earlier, rfl, ended⟩ := progress_eq_of_latestExport? exported
  obtain ⟨encoding, cycle, -, -, finished, -, -, none_late_iff⟩ :=
    exported_of_flush (Run.of_replay replayed) ended (fun same => nomatch same)
  refine ⟨moment, earlier, machine, profile, replayed, ended, two, encoding, cycle, finished, ?_⟩
  by_contra none_released
  push Not at none_released
  refine late (none_late_iff.mp fun handle measured sample found => ?_)
  exact Bool.not_eq_true _ |>.mp (none_released handle measured sample found)

/-- In that run both samples of the snapshot are exported, and one of them is released by then. -/
theorem released_sample_exported :
    ∃ moment earlier machine profile,
      Run { sampleRate := 1, compression := .none } (moment :: earlier) machine ∧
      moment.progress = .replied (.flushed (.ok profile)) ∧
      profile.processedCount = 2 ∧ profile.sampleCount = 2 ∧
      ∃ handle ∈ latestSnapshot (moment :: earlier), ∃ sample,
        moment.before.collector.store.sample? handle = some sample ∧ sample.isReleased = true := by
  obtain ⟨history, machine, replayed, checked⟩ := exists_of_replay
    { sampleRate := 1, compression := .none } releasedAfterMeasured
    (fun run => ((latestExport? run.1).any fun profile : ExportedProfile =>
        decide (profile.processedCount = 2) && decide (profile.sampleCount = 2)) &&
      (latestSnapshot run.1).any fun handle => (run.1.head?.bind fun moment =>
        moment.before.collector.store.sample? handle).any Sample.isReleased) (by decide +kernel)
  simp only [Bool.and_eq_true, Option.any_eq_true, decide_eq_true_eq, List.any_eq_true] at checked
  obtain ⟨⟨profile, exported, processed, two⟩, handle, owned, sample, found, released⟩ := checked
  obtain ⟨moment, earlier, rfl, ended⟩ := progress_eq_of_latestExport? exported
  exact ⟨moment, earlier, machine, profile, Run.of_replay replayed, ended, processed, two, handle,
    owned, sample, found, released⟩

end HeapSampler
