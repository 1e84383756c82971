import Mathlib
import HeapSampler.Proofs.Intern.Holdings

/-!
# What a failed call leaves

A call that takes several references may fail after some of them were taken.  Interning a place
gives back what it has taken, and then every entry of both tables is as it was, though ids that are
free may be reused in another order.  Releasing the last reference to a place does not: if callers
have given back a string that the place still refers to, the place is gone when the call fails.
-/

namespace HeapSampler

namespace InternSet

variable {κ : Type} {set after : InternSet κ} {id : Nat}

theorem references_of_get? {interned : Interned κ} (present : set.get? id = some interned) :
    set.references id = interned.count := by
  rw [references, present, Option.map_some, Option.getD_some]

/-- An entry is its key and its number of references. -/
theorem Sound.get?_eq (sound : after.Sound)
    (references_eq : after.references id = set.references id)
    (key?_keeps : ∀ key, set.key? id = some key → after.key? id = some key) :
    after.get? id = set.get? id := by
  cases present : set.get? id with
  | none =>
      rw [Option.eq_none_iff_forall_ne_some]
      intro interned found
      have positive := sound.references_pos_iff.mpr ⟨interned, found⟩
      rw [references_eq, references, present] at positive
      exact absurd positive (Nat.lt_irrefl 0)
  | some old =>
      have held : after.key? id = some old.key := key?_keeps _ (by rw [key?, present]; rfl)
      obtain ⟨interned, found, key_eq⟩ := Option.map_eq_some_iff.mp held
      rw [references_of_get? found, references_of_get? present] at references_eq
      rw [found]
      cases interned
      cases old
      cases key_eq
      cases references_eq
      rfl

/-- What keys are found under follows from the entries. -/
theorem Sound.find?_eq [DecidableEq κ] (sound : set.Sound) (sound' : after.Sound)
    (same : ∀ id, after.get? id = set.get? id) (key : κ) : after.find? key = set.find? key := by
  refine Option.ext fun id => ?_
  rw [sound'.find?_eq_some_iff, sound.find?_eq_some_iff, key?, key?, same]

end InternSet

namespace StringTable

variable {table middle after : StringTable} {text : String} {id : StringId} {ids : List StringId}

/-- A table with further references, to each id as many as it is listed. -/
structure Gains (table after : StringTable) (ids : List StringId) : Prop where
  sound : after.set.Sound
  key?_keeps : ∀ {id : Nat} {key : String}, table.set.key? id = some key →
    after.set.key? id = some key
  references_eq : ∀ id : StringId, id ≠ .empty →
    after.set.references id.value = table.set.references id.value + ids.count id

namespace Gains

theorem refl (sound : table.set.Sound) : table.Gains table [] := ⟨sound, id, fun _ _ => rfl⟩

theorem congr (gains : table.Gains after ids) {ids' : List StringId} (same : ids.Perm ids') :
    table.Gains after ids' where
  sound := gains.sound
  key?_keeps := gains.key?_keeps
  references_eq other named := by rw [gains.references_eq other named, same.count_eq]

theorem intern (gains : table.Gains middle ids) (interned : middle.intern text = .ok (after, id)) :
    table.Gains after (id :: ids) := by
  unfold StringTable.intern at interned
  split at interned
  · cases interned
    refine ⟨gains.sound, gains.key?_keeps, fun other named => ?_⟩
    rw [gains.references_eq other named, List.count_cons_of_ne named.symm]
  · obtain ⟨⟨set, number⟩, went, ⟨⟩⟩ := exists_ok_of_map interned
    obtain ⟨more, -⟩ := gains.sound.gains_of_intern went
    refine ⟨more.sound, fun held => more.key?_keeps (gains.key?_keeps held), fun other named => ?_⟩
    rw [more.references_eq, gains.references_eq other named, List.count_cons]
    by_cases same : other = ⟨number⟩
    · simp [same, Nat.add_assoc]
    · have apart : other.value ≠ number := fun value => same (congrArg StringId.mk value)
      simp [apart, Ne.symm same]

/-- A further reference can be given back, and what was there before is not touched by it. -/
theorem release (sound : table.set.Sound) (gains : table.Gains middle (id :: ids)) :
    ∃ after, middle.release id = .ok after ∧ table.Gains after ids := by
  by_cases blank : id = .empty
  · refine ⟨middle, by rw [StringTable.release, if_pos blank], gains.sound, gains.key?_keeps,
      fun other named => ?_⟩
    have apart : id ≠ other := fun same => named (same ▸ blank)
    rw [gains.references_eq other named, List.count_cons_of_ne apart]
  · have referred : 0 < middle.set.references id.value := by
      rw [gains.references_eq id blank, List.count_cons_self]
      exact Nat.succ_pos _
    obtain ⟨set, last, released, loses, -⟩ := gains.sound.loses_of_release referred
    have references_eq (other : StringId) (named : other ≠ .empty) :
        set.references other.value = table.set.references other.value + ids.count other := by
      have counted := gains.references_eq other named
      rw [loses.references_eq, List.count_cons] at counted
      by_cases same : other = id
      · simp only [same, beq_self_eq_true, if_true] at counted ⊢
        omega
      · have apart : other.value ≠ id.value := fun value => same (congrArg StringId.mk value)
        simpa [apart, Ne.symm same] using counted
    refine ⟨⟨set⟩, by simp [StringTable.release, blank, released, Except.map], loses.sound,
      fun {place key} held => ?_, references_eq⟩
    have named : (⟨place⟩ : StringId) ≠ .empty := by
      rintro ⟨⟩
      cases held
    have positive : 0 < table.set.references place :=
      sound.key?_isSome_iff.mp (Option.isSome_iff_exists.mpr ⟨key, held⟩)
    have left : 0 < set.references place := by
      rw [references_eq ⟨place⟩ named]
      exact Nat.lt_add_right _ positive
    exact (loses.key?_eq left).trans (gains.key?_keeps held)

/-- When all further references are given back, every entry is as it was. -/
theorem get?_eq (gains : table.Gains after []) (place : Nat) :
    after.set.get? place = table.set.get? place := by
  cases place with
  | zero => rfl
  | succ index =>
      refine gains.sound.get?_eq ?_ fun _ => gains.key?_keeps
      exact gains.references_eq ⟨index + 1⟩ (by rintro ⟨⟩)

end Gains

end StringTable

namespace Tables

/-- Under each id of either table there is the same entry, with the same number of references, and
each key is found under the same id. -/
structure SameEntries (tables later : Tables) : Prop where
  strings : ∀ id, later.strings.set.get? id = tables.strings.set.get? id
  functions : ∀ id, later.functions.set.get? id = tables.functions.set.get? id
  strings_found : ∀ text, later.strings.set.find? text = tables.strings.set.find? text
  functions_found : ∀ place, later.functions.set.find? place = tables.functions.set.find? place

theorem SameEntries.refl (tables : Tables) : tables.SameEntries tables :=
  ⟨fun _ => rfl, fun _ => rfl, fun _ => rfl, fun _ => rfl⟩

/-- Strings that were taken and given back are no change. -/
theorem SameEntries.of_gains {tables later : Tables} (sound : tables.strings.set.Sound)
    (gains : tables.strings.Gains later.strings [])
    (functions_eq : later.functions = tables.functions) :
    tables.SameEntries later where
  strings := gains.get?_eq
  functions _ := by rw [functions_eq]
  strings_found := sound.find?_eq gains.sound gains.get?_eq
  functions_found _ := by rw [functions_eq]

/-- What a failed release of the last reference to a place leaves: the place is gone, and so is at
most one of the references that it had to its strings. -/
structure Torn (tables later : Tables) (id : LocationId) (place : Place) (cause : InternError) :
    Prop where
  gone : later.functions.set.get? id.value = none
  unfound : later.functions.set.find? place = none
  others : ∀ other, other ≠ id.value →
    later.functions.set.get? other = tables.functions.set.get? other
  /-- Either the name was missing, and the reference to the file is left over, or the name was given
  back and then the file was missing. -/
  strings :
    tables.strings.lookup? place.name = none ∧ later.strings = tables.strings ∧
        cause = .unknownId place.name.value ∨
      tables.strings.release place.name = .ok later.strings ∧
        later.strings.lookup? place.file = none ∧ cause = .unknownId place.file.value

variable {tables later : Tables} {cause : InternError}

/-- What is taken for a new place is given back if the place cannot be added. -/
theorem Sound.sameEntries_of_addPlace (sound : tables.Sound) {place : NamedPlace}
    (failed : tables.addPlace place = (later, .error cause)) : tables.SameEntries later := by
  have strings_sound := sound.strings.set
  unfold Tables.addPlace at failed
  cases name_interned : tables.strings.intern place.functionName with
  | error own =>
      simp only [name_interned, Prod.mk.injEq] at failed
      obtain ⟨rfl, -⟩ := failed
      exact .refl _
  | ok named =>
      obtain ⟨strings, name⟩ := named
      have named := (StringTable.Gains.refl strings_sound).intern name_interned
      simp only [name_interned] at failed
      cases file_interned : strings.intern place.fileName with
      | error own =>
          obtain ⟨left, released, nothing⟩ := named.release strings_sound
          simp only [file_interned, released, Prod.mk.injEq] at failed
          obtain ⟨rfl, -⟩ := failed
          exact .of_gains strings_sound nothing rfl
      | ok filed =>
          obtain ⟨strings', file⟩ := filed
          have both := (named.intern file_interned).congr (.swap _ _ _)
          simp only [file_interned] at failed
          cases added : tables.functions.set.intern { name, file, line := place.line } with
          | ok keyed => simp [added] at failed
          | error own =>
              obtain ⟨left, name_released, one⟩ := both.release strings_sound
              obtain ⟨left', file_released, nothing⟩ := one.release strings_sound
              simp only [added, releasePair, name_released, file_released, Prod.mk.injEq] at failed
              obtain ⟨rfl, -⟩ := failed
              exact .of_gains strings_sound nothing rfl

theorem Sound.sameEntries_of_internPlace (sound : tables.Sound) {place : NamedPlace}
    (failed : tables.internPlace place = (later, .error cause)) : tables.SameEntries later := by
  unfold Tables.internPlace at failed
  split at failed
  · split at failed
    · cases failed
    · cases failed
      exact .refl _
  · exact sound.sameEntries_of_addPlace failed

/-- A place can only fail to be released if it is not there, or with its last reference. -/
theorem torn_of_releasePlace {id : LocationId}
    (failed : tables.releasePlace id = (later, .error cause)) :
    tables.functions.set.get? id.value = none ∧ later = tables ∨
      ∃ old, tables.functions.set.get? id.value = some old ∧ old.count ≤ 1 ∧
        tables.Torn later id old.key cause := by
  cases present : tables.functions.set.get? id.value with
  | none =>
      simp only [releasePlace, InternSet.release, present, Prod.mk.injEq] at failed
      exact .inl ⟨rfl, failed.1.symm⟩
  | some old =>
      by_cases several : 1 < old.count
      · rw [releasePlace_of_shared present several] at failed
        cases failed
      · refine .inr ⟨old, rfl, Nat.le_of_not_lt several, ?_⟩
        have functions_eq := functions_of_last present several
        rw [failed] at functions_eq
        refine ⟨?_, ?_, fun other apart => ?_, ?_⟩
        · rw [functions_eq, InternSet.get?_vacate present, if_pos rfl]
        · rw [functions_eq]
          exact Index.get?_erase _ _
        · rw [functions_eq, InternSet.get?_vacate present, if_neg apart]
        · simp only [releasePlace, InternSet.release, present, several, if_false, releasePair]
            at failed
          cases name_released : tables.strings.release old.key.name with
          | error own =>
              simp only [name_released, Prod.mk.injEq, Except.error.injEq] at failed
              obtain ⟨rfl, rfl⟩ := failed
              obtain ⟨gone, cause_eq⟩ := StringTable.fails_of_release name_released
              exact .inl ⟨gone, rfl, cause_eq⟩
          | ok strings =>
              simp only [name_released] at failed
              cases file_released : strings.release old.key.file with
              | ok strings' => simp [file_released] at failed
              | error own =>
                  simp only [file_released, Prod.mk.injEq, Except.error.injEq] at failed
                  obtain ⟨rfl, rfl⟩ := failed
                  obtain ⟨gone, cause_eq⟩ := StringTable.fails_of_release file_released
                  exact .inr ⟨rfl, gone, cause_eq⟩

/-- Every call but the release of a place either goes through or leaves all entries as they are. -/
theorem Sound.sameEntries_of_failed (sound : tables.Sound) {call : Call}
    (failed : tables.answer call = .error cause) (keeps : ∀ id, call ≠ .releasePlace id) :
    tables.SameEntries (tables.perform call) := by
  cases call with
  | intern text =>
      rw [Tables.perform, error_of_map failed]
      exact .refl _
  | retain id =>
      rw [Tables.perform, error_of_map failed]
      exact .refl _
  | release id =>
      rw [Tables.perform, error_of_map failed]
      exact .refl _
  | internPlace place => exact sound.sameEntries_of_internPlace (Prod.ext rfl (error_of_map failed))
  | retainPlace id =>
      rw [Tables.perform, error_of_map failed]
      exact .refl _
  | releasePlace id => exact absurd rfl (keeps id)

/-- A call that fails leaves every entry of both tables as it was, with one exception: a place whose
last reference is released is gone even if that fails. -/
theorem same_entries_iff_of_failed (reached : tables.Reachable) {call : Call}
    (failed : tables.answer call = .error cause) :
    (tables.SameEntries (tables.perform call) ↔
        ∀ id, call = .releasePlace id → tables.functions.count? id ≠ some 1) ∧
      ∀ id place, call = .releasePlace id → tables.functions.lookup? id = some place →
        tables.functions.count? id = some 1 →
          tables.Torn (tables.perform call) id place cause := by
  have sound := reached.sound
  by_cases release : ∃ id, call = .releasePlace id
  · obtain ⟨id, rfl⟩ := release
    have went : tables.releasePlace id = (tables.perform (.releasePlace id), .error cause) :=
      Prod.ext rfl (error_of_map failed)
    obtain ⟨vacant, same⟩ | ⟨old, present, few, torn⟩ := torn_of_releasePlace went
    · have uncounted : tables.functions.count? id = none := by
        rw [FunctionTable.count?, vacant, Option.map_none]
      rw [same]
      refine ⟨⟨fun _ other call_eq counted => ?_, fun _ => .refl _⟩,
        fun other _ call_eq _ counted => ?_⟩
      all_goals
        cases call_eq
        cases uncounted.symm.trans counted
    · have single : old.count = 1 := by
        have positive := sound.functions.count_pos present
        omega
      have counted : tables.functions.count? id = some 1 := by
        rw [FunctionTable.count?, present, Option.map_some, single]
      refine ⟨⟨fun same => ?_, fun spared => absurd counted (spared id rfl)⟩,
        fun other place call_eq found _ => ?_⟩
      · have kept := same.functions id.value
        rw [torn.gone, present] at kept
        cases kept
      · cases call_eq
        rw [FunctionTable.lookup?, present] at found
        cases found
        exact torn
  · have keeps (id : LocationId) : call ≠ .releasePlace id := fun call_eq => release ⟨id, call_eq⟩
    exact ⟨⟨fun _ id call_eq => absurd call_eq (keeps id),
      fun _ => sound.sameEntries_of_failed failed keeps⟩,
      fun id _ call_eq => absurd call_eq (keeps id)⟩

/-- A place whose name was interned apart and given back once too often. -/
def looseTables : Tables :=
  (((({} : Tables).perform (.intern "f")).perform (.internPlace ⟨"f", "a.rb", 1⟩)).perform
    (.release ⟨1⟩)).perform (.release ⟨1⟩)

theorem same_entries_iff_of_looseTables :
    looseTables.answer (.releasePlace ⟨1⟩) = .error (.unknownId 1) ∧
      looseTables.functions.lookup? ⟨1⟩ = some ⟨⟨1⟩, ⟨2⟩, 1⟩ ∧
      looseTables.Torn (looseTables.perform (.releasePlace ⟨1⟩)) ⟨1⟩ ⟨⟨1⟩, ⟨2⟩, 1⟩ (.unknownId 1) ∧
      looseTables.answer (.retain ⟨1⟩) = .error (.unknownId 1) ∧
      looseTables.SameEntries (looseTables.perform (.retain ⟨1⟩)) := by
  have reached : looseTables.Reachable :=
    (((Reachable.empty.called _).called _).called _).called _
  have releasing : looseTables.answer (.releasePlace ⟨1⟩) = .error (.unknownId 1) := by
    decide +kernel
  have retaining : looseTables.answer (.retain ⟨1⟩) = .error (.unknownId 1) := by decide +kernel
  have found : looseTables.functions.lookup? ⟨1⟩ = some ⟨⟨1⟩, ⟨2⟩, 1⟩ := by decide +kernel
  refine ⟨releasing, found, ?_, retaining, ?_⟩
  · exact (same_entries_iff_of_failed reached releasing).2 _ _ rfl found (by decide +kernel)
  · exact (same_entries_iff_of_failed reached retaining).1.mpr (by rintro _ ⟨⟩)

/-- The place is gone though its release has failed, and the reference to its file has stayed. -/
theorem place_lost_of_failed_release :
    looseTables.answer (.releasePlace ⟨1⟩) = .error (.unknownId 1) ∧
      looseTables.functions.lookup? ⟨1⟩ = some ⟨⟨1⟩, ⟨2⟩, 1⟩ ∧
      (looseTables.perform (.releasePlace ⟨1⟩)).functions.lookup? ⟨1⟩ = none ∧
      (looseTables.perform (.releasePlace ⟨1⟩)).strings.count? ⟨2⟩ = some 1 ∧
      ¬looseTables.SameEntries (looseTables.perform (.releasePlace ⟨1⟩)) := by
  refine ⟨by decide +kernel, by decide +kernel, by decide +kernel, by decide +kernel,
    fun same => ?_⟩
  have kept := same.functions 1
  exact absurd kept (by decide +kernel)

end Tables

end HeapSampler
