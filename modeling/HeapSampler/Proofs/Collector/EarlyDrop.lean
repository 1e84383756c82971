import Mathlib
import HeapSampler.Proofs.Collector.Captures
import HeapSampler.Proofs.Intern.Failures

/-!
# Drops without a capture

An allocation that finds the store full is dropped before its backtrace is asked for, unless its
identity is live.  Had the backtrace been captured and the tags been interned, the store would have
refused the sample and given back the references to the tags, so the result is the same: the same
samples, the same count of drops, and the same interned entries, each with the same references.
-/

namespace HeapSampler

/-! ## Room for references -/

/-- Every count of references and the number of strings can go up by so many. -/
structure StringTable.Room (table : StringTable) (rest : Nat) : Prop where
  counts : ∀ id, table.set.references id + rest ≤ InternSet.maxWord
  strings : table.size + rest ≤ InternSet.maxWord

namespace StringTable.Room

variable {table after : StringTable} {rest : Nat} {cause : InternError}

theorem not_spent (room : table.Room (rest + 1)) : ¬table.set.Spent cause := by
  rintro (@⟨id, _, present, full⟩ | full)
  · have counted := room.counts id
    rw [InternSet.references_of_get? present] at counted
    omega
  · have counted := room.strings
    rw [StringTable.size, full] at counted
    omega

/-- Interning takes at most one reference and one id. -/
theorem intern (sound : table.set.Sound) (room : table.Room (rest + 1)) (text : String) :
    ∃ after id, table.intern text = .ok (after, id) ∧ after.Room rest := by
  by_cases blank : text = ""
  · refine ⟨table, .empty, by rw [StringTable.intern, if_pos blank], fun id => ?_, ?_⟩
    · have counted := room.counts id
      omega
    · have counted := room.strings
      omega
  · cases interned : table.set.intern text with
    | error cause => exact absurd (sound.spent_of_intern interned) room.not_spent
    | ok reached =>
        obtain ⟨set, number⟩ := reached
        refine ⟨⟨set⟩, ⟨number⟩, by simp [StringTable.intern, blank, interned, Except.map],
          fun id => ?_, ?_⟩
        · have counted := room.counts id
          rw [(sound.gains_of_intern interned).1.references_eq]
          split <;> omega
        · have counted := room.strings
          obtain ⟨gains, ⟨-, same⟩ | ⟨-, more⟩⟩ := sound.gains_of_intern interned
          all_goals
            rw [StringTable.size, sound.size_eq_length] at counted
            rw [StringTable.size, gains.sound.size_eq_length]
          · rw [same.length_eq]
            omega
          · rw [more.length_eq, List.length_cons]
            omega

end StringTable.Room

/-! ## Tags that are interned and given back -/

namespace Tables

variable {table : StringTable} {tables after : Tables} {texts : List StringId}

theorem gains_of_internTag {tag : String × String} {id : Tag}
    (gains : table.Gains tables.strings texts) (interned : tables.internTag tag = .ok (after, id)) :
    table.Gains after.strings (id.texts ++ texts) ∧ after.functions = tables.functions := by
  obtain ⟨keyed, valued, key_interned, value_interned, rfl⟩ := steps_of_internTag interned
  have both := (gains.intern key_interned).intern value_interned
  exact ⟨both.congr (.swap _ _ _), rfl⟩

theorem gains_of_internTags {tags : List (String × String)} {ids : List Tag}
    (gains : table.Gains tables.strings texts)
    (interned : tables.internTags tags = .ok (after, ids)) :
    table.Gains after.strings (ids.flatMap Tag.texts ++ texts) ∧
      after.functions = tables.functions := by
  induction tags generalizing tables texts ids with
  | nil =>
      cases interned
      exact ⟨gains, rfl⟩
  | cons tag rest ih =>
      obtain ⟨middle, id, others, first_interned, others_interned, rfl⟩ :=
        steps_of_internTags interned
      obtain ⟨first_gains, first_same⟩ := gains_of_internTag gains first_interned
      obtain ⟨all_gains, same⟩ := ih first_gains others_interned
      refine ⟨all_gains.congr ?_, same.trans first_same⟩
      rw [List.flatMap_cons, ← List.append_assoc]
      exact List.perm_append_comm.append_right texts

theorem exists_of_releaseTag (sound : table.set.Sound) {tag : Tag}
    (gains : table.Gains tables.strings (tag.texts ++ texts)) :
    ∃ after, Inventory.releaseTag tables tag = .ok after ∧ table.Gains after.strings texts ∧
      after.functions = tables.functions := by
  obtain ⟨keyed, key_released, key_gains⟩ := gains.release sound
  obtain ⟨valued, value_released, value_gains⟩ := key_gains.release sound
  refine ⟨{ tables with strings := valued }, ?_, value_gains, rfl⟩
  simp only [Inventory.releaseTag, Inventory.releaseString, key_released, value_released, bind,
    Except.bind]

theorem exists_of_releaseTags (sound : table.set.Sound) {tags : List Tag}
    (gains : table.Gains tables.strings (tags.flatMap Tag.texts ++ texts)) :
    ∃ after, tags.foldlM Inventory.releaseTag tables = .ok after ∧
      table.Gains after.strings texts ∧ after.functions = tables.functions := by
  induction tags generalizing tables with
  | nil => exact ⟨tables, rfl, gains, rfl⟩
  | cons tag rest ih =>
      rw [List.flatMap_cons, List.append_assoc] at gains
      obtain ⟨middle, released, rest_gains, middle_same⟩ := exists_of_releaseTag sound gains
      obtain ⟨after, rest_released, no_gains, same⟩ := ih rest_gains
      refine ⟨after, ?_, no_gains, same.trans middle_same⟩
      simp only [List.foldlM_cons, released, bind, Except.bind]
      exact rest_released

/-- Tags that are interned and then given back leave every entry as it was. -/
theorem same_entries_of_internTags (sound : tables.strings.set.Sound)
    {tags : List (String × String)} {ids : List Tag}
    (interned : tables.internTags tags = .ok (after, ids)) :
    ∃ back, ids.foldlM Inventory.releaseTag after = .ok back ∧ tables.SameEntries back := by
  obtain ⟨gains, same⟩ := gains_of_internTags (.refl sound) interned
  obtain ⟨back, released, nothing, same'⟩ := exists_of_releaseTags sound gains
  exact ⟨back, released, .of_gains sound nothing (same'.trans same)⟩

theorem exists_of_internTag (sound : tables.strings.set.Sound) {rest : Nat}
    (room : tables.strings.Room (rest + 2)) (tag : String × String) :
    ∃ after id, tables.internTag tag = .ok (after, id) ∧ after.strings.set.Sound ∧
      after.strings.Room rest := by
  obtain ⟨keyed, key, key_interned, key_room⟩ := room.intern sound tag.1
  have key_sound := ((StringTable.Gains.refl sound).intern key_interned).sound
  obtain ⟨valued, value, value_interned, value_room⟩ := key_room.intern key_sound tag.2
  have value_sound := ((StringTable.Gains.refl key_sound).intern value_interned).sound
  refine ⟨{ tables with strings := valued }, { key, value }, ?_, value_sound, value_room⟩
  simp only [internTag, key_interned, value_interned, bind, Except.bind, pure, Except.pure]

/-- With room for two strings of each, tags can be interned. -/
theorem exists_of_internTags (sound : tables.strings.set.Sound) {tags : List (String × String)}
    (room : tables.strings.Room (2 * tags.length)) :
    ∃ after ids, tables.internTags tags = .ok (after, ids) := by
  induction tags generalizing tables with
  | nil => exact ⟨tables, [], rfl⟩
  | cons tag rest ih =>
      obtain ⟨middle, id, interned, middle_sound, middle_room⟩ := exists_of_internTag sound room tag
      obtain ⟨after, ids, rest_interned⟩ := ih middle_sound middle_room
      refine ⟨after, id :: ids, ?_⟩
      simp only [internTags, interned, rest_interned, bind, Except.bind, pure, Except.pure]

end Tables

/-! ## Both ways of dropping an allocation -/

namespace Collector

variable {collector late : Collector} {identity : Identity}

/-- Two collectors that nothing tells apart but the order in which free ids are used again. -/
structure Agrees (early late : Collector) : Prop where
  /-- The live table, the samples with their owners, the bound and the drops. -/
  store_eq : late.store = early.store
  entries : early.tables.SameEntries late.tables
  framed : early.Framed late
  flushing_eq : late.flushing = early.flushing

/-- What the long way makes of an allocation that finds the store full. -/
theorem agrees_of_resumeCapture (sound : collector.tables.strings.set.Sound)
    (running : collector.running = true) (full : collector.store.isFull = true)
    (absent : collector.store.contains identity = false) {tags : List (String × String)}
    {tables : Tables} {ids : List Tag}
    (interned : collector.tables.internTags
      (overlay collector.settings.settings.globalTags.entries tags) = .ok (tables, ids))
    (backtrace : Backtrace) :
    ∃ late, collector.resumeCapture identity tags backtrace = .ok late ∧
      (collector.withStore collector.store.recordDrop).Agrees late := by
  obtain ⟨back, released, same⟩ := Tables.same_entries_of_internTags sound interned
  have missing : collector.inventory.store.handle? identity = none :=
    Option.not_isSome_iff_eq_none.mp (by rw [← Store.contains, ← store, absent]; decide)
  have full' : collector.inventory.store.isFull = true := full
  refine ⟨{ collector with
    inventory := { store := collector.store.recordDrop, tables := back } }, ?_, ?_⟩
  · simp only [resumeCapture, running, Bool.not_true, Bool.false_eq_true, if_false, interned,
      Inventory.recordAllocation, Inventory.recordRelease, missing, full', if_true, released, bind,
      Except.bind, pure, Except.pure]
    rfl
  · exact ⟨rfl, same, ⟨rfl, rfl, rfl, rfl⟩, rfl⟩

end Collector

/-- At a rate of one, an allocation that finds the store full and whose identity is not live is
dropped at once, and the collector is then as if the backtrace had been captured and the tags been
interned; that way cannot be gone to its end only if a count or the ids run out. -/
theorem agrees_of_earlyDrop {settings : Settings} {history : List Moment} {machine : Machine}
    (run : Run settings history machine) (running : machine.collector.running = true)
    (rate_eq : machine.collector.settings.rate = .always)
    (full : machine.collector.store.isFull = true) {identity : Identity}
    (absent : machine.collector.store.contains identity = false) (tags : List (String × String))
    (draw : UInt32) (backtrace : Backtrace) :
    ∃ early, machine.collector.allocate identity tags draw = (early, .replied .noted) ∧
      (∀ late, machine.collector.resumeCapture identity tags backtrace = .ok late →
        early.Agrees late) ∧
      (machine.collector.tables.strings.Room
          (2 * (overlay machine.collector.settings.settings.globalTags.entries tags).length) →
        ∃ late, machine.collector.resumeCapture identity tags backtrace = .ok late) ∧
      ∀ breach, machine.collector.resumeCapture identity tags backtrace = .error breach →
        ∃ cause, breach = .interning cause ∧ cause.IsExhaustion := by
  have balanced := run.sound.balanced
  have sound : machine.collector.tables.strings.set.Sound := balanced.tables.strings
  have dropped : machine.collector.allocate identity tags draw =
      (machine.collector.withStore machine.collector.store.recordDrop, .replied .noted) := by
    simp [Collector.allocate, running, rate_eq, full, absent]
  refine ⟨_, dropped, ?_⟩
  cases interned : machine.collector.tables.internTags
      (overlay machine.collector.settings.settings.globalTags.entries tags) with
  | error cause =>
      have failed : machine.collector.resumeCapture identity tags backtrace =
          .error (.interning cause) := by
        simp [Collector.resumeCapture, running, interned]
      rw [failed]
      refine ⟨?_, fun room => ?_, ?_⟩
      · rintro late ⟨⟩
      · obtain ⟨tables, ids, interned'⟩ := Tables.exists_of_internTags sound room
        cases interned.symm.trans interned'
      · rintro breach ⟨⟩
        exact ⟨cause, rfl, balanced.tables.exhausted_of_tags interned⟩
  | ok reached =>
      obtain ⟨late, resumed, agrees⟩ :=
        Collector.agrees_of_resumeCapture sound running full absent interned backtrace
      rw [resumed]
      refine ⟨?_, fun _ => ⟨late, rfl⟩, ?_⟩
      · rintro late' ⟨⟩
        exact agrees
      · rintro breach ⟨⟩

/--
The store is full with one sample, whose tags share strings with those of the next allocation.
-/
def filledStore : List Move :=
  let answer := Move.answer (.uniform [⟨"work", "work.rb", 7⟩])
  [.call (.start 0), answer, .call (.allocate ⟨1⟩ [("job", "mail")] 0), answer]

theorem agrees_of_filledStore :
    ∃ history machine early late,
      replay { sampleRate := 1, maxSamples := 1 } filledStore = some (history, machine) ∧
      machine.collector.allocate ⟨2⟩ [("mail", "mail"), ("size", "job")] 0 =
        (early, .replied .noted) ∧
      machine.collector.resumeCapture ⟨2⟩ [("mail", "mail"), ("size", "job")] ⟨[⟨7⟩]⟩ = .ok late ∧
      early.Agrees late ∧ early.store.dropped = 1 := by
  obtain ⟨history, machine, replayed, checked⟩ := exists_of_replay
    { sampleRate := 1, maxSamples := 1 } filledStore
    (fun run => run.2.collector.running && decide (run.2.collector.settings.rate = .always) &&
      run.2.collector.store.isFull && !run.2.collector.store.contains ⟨2⟩ &&
      (run.2.collector.resumeCapture ⟨2⟩ [("mail", "mail"), ("size", "job")] ⟨[⟨7⟩]⟩).toOption.any
        fun late : Collector => decide (late.store.dropped = 1))
    (by decide +kernel)
  simp only [Bool.and_eq_true, Bool.not_eq_true', decide_eq_true_eq] at checked
  obtain ⟨⟨⟨⟨running, rate_eq⟩, full⟩, absent⟩, reached⟩ := checked
  obtain ⟨early, dropped, agrees, -⟩ := agrees_of_earlyDrop (Run.of_replay replayed) running rate_eq
    full absent [("mail", "mail"), ("size", "job")] 0 ⟨[⟨7⟩]⟩
  cases resumed : machine.collector.resumeCapture ⟨2⟩ [("mail", "mail"), ("size", "job")]
      ⟨[⟨7⟩]⟩ with
  | error breach => simp [resumed, Except.toOption] at reached
  | ok late =>
      have counted : late.store.dropped = 1 := by
        simpa [resumed, Except.toOption] using reached
      have same := agrees late resumed
      exact ⟨history, machine, early, late, replayed, dropped, resumed, same,
        same.store_eq ▸ counted⟩

end HeapSampler
