import Mathlib
import HeapSampler.Proofs.Export.Lookups

/-!
# When samples can be drafted

If all references of the samples lead somewhere, drafting them can fail for one reason only: they
need more strings than there are offsets.  Then it does fail.
-/

namespace HeapSampler

open Pprof (StringOffset)

structure Tables.Resolves (tables : Tables) (samples : List Sample) : Prop where
  tag : ∀ own ∈ samples, ∀ tag ∈ own.tags, ∃ pair, tables.tag? tag = some pair
  place : ∀ own ∈ samples, ∀ id ∈ own.locations, ∃ place, tables.place? id = some place

theorem Tables.resolves_of_isSome {tables : Tables} {samples : List Sample}
    (tagged : ∀ own ∈ samples, ∀ tag ∈ own.tags, (tables.tag? tag).isSome = true)
    (placed : ∀ own ∈ samples, ∀ id ∈ own.locations, (tables.place? id).isSome = true) :
    tables.Resolves samples where
  tag own listed tag member := Option.isSome_iff_exists.mp (tagged own listed tag member)
  place own listed id member := Option.isSome_iff_exists.mp (placed own listed id member)

section Resolves

variable {tables : Tables} {samples : List Sample}

theorem Tables.Resolves.isLive (resolves : tables.Resolves samples) {own : Sample}
    (listed : own ∈ samples) : own.IsLive tables where
  key tag tag_listed := by
    obtain ⟨pair, found⟩ := resolves.tag own listed tag tag_listed
    exact Option.isSome_of_eq_some (tag?_eq_some_iff.mp found).1
  value tag tag_listed := by
    obtain ⟨pair, found⟩ := resolves.tag own listed tag tag_listed
    exact Option.isSome_of_eq_some (tag?_eq_some_iff.mp found).2
  place id id_listed := by
    obtain ⟨named, found⟩ := resolves.place own listed id id_listed
    obtain ⟨place, place_found, name_found, file_found, -⟩ :=
      FunctionTable.resolve?_eq_some_iff.mp found
    exact ⟨place, place_found, Option.isSome_of_eq_some name_found,
      Option.isSome_of_eq_some file_found⟩

/-- If everything is there, the strings that are looked up are those that the profile needs. -/
theorem Tables.Resolves.foresees (resolves : tables.Resolves samples) :
    Drafting.Foresees tables (Drafting.Mentions tables samples) (tables.references samples) := by
  intro id listed text found
  rcases List.mem_append.mp listed with tagged | placed
  · obtain ⟨own, own_listed, member⟩ := List.mem_flatMap.mp tagged
    obtain ⟨tag, tag_listed, member⟩ := List.mem_flatMap.mp member
    obtain ⟨pair, pair_found⟩ := resolves.tag own own_listed tag tag_listed
    obtain ⟨key_found, value_found⟩ := tag?_eq_some_iff.mp pair_found
    refine .inr ⟨own, own_listed, .inl ⟨tag, tag_listed, pair, pair_found, ?_⟩⟩
    rw [Tag.references, List.mem_pair, Reference.text.injEq, Reference.text.injEq] at member
    rcases member with rfl | rfl
    · exact .inl (Option.some.inj (found.symm.trans key_found))
    · exact .inr (Option.some.inj (found.symm.trans value_found))
  · obtain ⟨place_id, id_listed, member⟩ := List.mem_flatMap.mp placed
    obtain ⟨own, own_listed, own_id⟩ := mem_placesOf.mp id_listed
    obtain ⟨named, named_found⟩ := resolves.place own own_listed place_id own_id
    obtain ⟨place, place_found, name_found, file_found, -⟩ :=
      FunctionTable.resolve?_eq_some_iff.mp named_found
    refine .inr ⟨own, own_listed, .inr ⟨place_id, own_id, named, named_found, ?_⟩⟩
    simp only [placeReferences, place_found, List.mem_cons, reduceCtorEq, Reference.text.injEq,
      List.not_mem_nil, or_false, false_or] at member
    rcases member with rfl | rfl
    · exact .inl (Option.some.inj (found.symm.trans name_found))
    · exact .inr (Option.some.inj (found.symm.trans file_found))

end Resolves

namespace Drafting

variable {tables : Tables} {samples : List Sample} {Expected : String → Prop} {after : Numbering}

/-- The empty string comes first. -/
theorem offsetOf_blank : (offsetOf "").run {} = .ok (.zero, { strings := #[""] }) := by
  cbv

/-- The fixed strings have offsets in every draft, and the sample types are given by them. -/
theorem exists_fixed_offsets {whole : Draft}
    (ran : (draft tables samples).run {} = .ok (whole, after)) :
    ∃ objects count size bytes,
      whole.sampleTypes = [{ type := objects, unit := count }, { type := size, unit := bytes }] ∧
      whole.defaultSampleType = size ∧ after.string? .zero = some "" ∧
      after.string? objects = some "retained_objects" ∧ after.string? count = some "count" ∧
      after.string? size = some "retained_size" ∧ after.string? bytes = some "bytes" := by
  unfold draft at ran
  obtain ⟨blank, first, blank_ran, ran⟩ := run_bind ran
  obtain ⟨types, last, types_ran, ran⟩ := run_bind ran
  -- which strings are expected does not matter here
  have blank_surveys := ((examines_offsetOf trivial).run_cases
    (surveys_empty tables fun _ => True) blank_ran).1
  have surveys := ((examines_sampleTypes fun _ _ => trivial).run_cases blank_surveys types_ran).1
  have later := ((examines_contents (fun _ _ _ _ => trivial) types).run_cases surveys ran).2
  obtain ⟨drafted, sampled, samples_ran, ran⟩ := run_bind ran
  obtain ⟨locations, located, locations_ran, ran⟩ := run_bind ran
  obtain ⟨numbering, whole, got, ran⟩ := run_bind ran
  cases got
  cases ran
  unfold sampleTypes at types_ran
  obtain ⟨objects, second, objects_ran, types_ran⟩ := run_bind types_ran
  obtain ⟨count, third, count_ran, types_ran⟩ := run_bind types_ran
  obtain ⟨size, fourth, size_ran, types_ran⟩ := run_bind types_ran
  obtain ⟨bytes, fifth, bytes_ran, types_ran⟩ := run_bind types_ran
  cases types_ran
  obtain ⟨-, blank_found⟩ := adds_of_offsetOf blank_ran
  obtain ⟨objects_adds, objects_found⟩ := adds_of_offsetOf objects_ran
  obtain ⟨count_adds, count_found⟩ := adds_of_offsetOf count_ran
  obtain ⟨size_adds, size_found⟩ := adds_of_offsetOf size_ran
  obtain ⟨bytes_adds, bytes_found⟩ := adds_of_offsetOf bytes_ran
  have after_size := bytes_adds.extends_.trans later
  have after_count := size_adds.extends_.trans after_size
  have after_objects := count_adds.extends_.trans after_count
  have after_blank := objects_adds.extends_.trans after_objects
  cases offsetOf_blank.symm.trans blank_ran
  exact ⟨objects, count, size, bytes, rfl, rfl, after_blank.string?_keeps blank_found,
    after_objects.string?_keeps objects_found, after_count.string?_keeps count_found,
    after_size.string?_keeps size_found, later.string?_keeps bytes_found⟩

/-- A fixed string has an offset in every draft. -/
theorem exists_offset_of_fixed {whole : Draft}
    (ran : (draft tables samples).run {} = .ok (whole, after)) {text : String}
    (fixed : text ∈ fixedTexts) : ∃ offset, after.string? offset = some text := by
  obtain ⟨objects, count, size, bytes, -, -, blank_found, objects_found, count_found, size_found,
    bytes_found⟩ := exists_fixed_offsets ran
  have each : ∀ text ∈ fixedTexts, ∃ offset, after.string? offset = some text := by
    simp only [fixedTexts, List.forall_mem_cons]
    exact ⟨⟨_, blank_found⟩, ⟨_, objects_found⟩, ⟨_, count_found⟩, ⟨_, size_found⟩,
      ⟨_, bytes_found⟩, List.forall_mem_nil _⟩
  exact each text fixed

/-- Every string that a draft needs has an offset in it. -/
theorem exists_offset_of_mentions {whole : Draft}
    (ran : (draft tables samples).run {} = .ok (whole, after)) {text : String}
    (mentioned : Mentions tables samples text) : ∃ offset, after.string? offset = some text := by
  have describes := describes_of_draft ran
  rcases mentioned with fixed | ⟨own, listed, tagged | placed⟩
  · exact exists_offset_of_fixed ran fixed
  · obtain ⟨tag, tag_listed, pair, found, named⟩ := tagged
    obtain ⟨message, -, sampled⟩ := exists_right describes.sampled listed
    obtain ⟨label, -, key, value, found', -, keyed, valued⟩ :=
      exists_right sampled.labels tag_listed
    cases found.symm.trans found'
    rcases named with rfl | rfl
    · exact ⟨label.key, keyed⟩
    · exact ⟨label.str, valued⟩
  · obtain ⟨id, id_listed, place, found, named⟩ := placed
    obtain ⟨message, -, own_place, number, found', -, index, function, -, -, name_found,
      file_found⟩ :=
      exists_right describes.located (mem_referenced.mpr ⟨own, listed, id_listed⟩)
    cases found.symm.trans found'
    rcases named with rfl | rfl
    · exact ⟨function.name, name_found⟩
    · exact ⟨function.filename, file_found⟩

/-- Offsets are words, so a string that has one is among the first 2^32. -/
theorem not_crowded_of_offsets {numbering : Numbering}
    (offsets : ∀ {text : String}, Expected text → ∃ offset, numbering.string? offset = some text) :
    ¬Crowded Expected := by
  rintro ⟨texts, nodup, expected, many⟩
  have inside : texts ⊆ numbering.strings.toList.take (2 ^ 32) := by
    intro text listed
    obtain ⟨offset, found⟩ := offsets (expected text listed)
    rw [List.mem_take_iff_getElem]
    obtain ⟨bounded, same⟩ := Array.getElem?_eq_some_iff.mp found
    have small : offset.toNat < 2 ^ 32 := offset.value.toNat_lt
    exact ⟨offset.toNat, by rw [Array.length_toList]; omega, by simpa using same⟩
  have shorter := (nodup.subperm inside).length_le
  have limited := List.length_take_le (2 ^ 32) numbering.strings.toList
  omega

end Drafting

/-- Samples whose references all lead somewhere can be drafted unless they need too many strings. -/
theorem Draft.ofSamples_cases {tables : Tables} {samples : List Sample}
    (resolves : tables.Resolves samples) :
    (∃ draft, Draft.ofSamples tables samples = .ok draft ∧
        ¬Drafting.Crowded (Drafting.Mentions tables samples)) ∨
      Draft.ofSamples tables samples = .error .storageFull ∧
        Drafting.Crowded (Drafting.Mentions tables samples) := by
  have live := Tables.firstMissing?_references_eq_none_iff.mpr fun _ => resolves.isLive
  rw [Draft.ofSamples, StateT.run'_eq]
  cases Drafting.examines_draft (fun _ => .inl) resolves.foresees {}
    (Drafting.surveys_empty _ _) with
  | drafts draft numbering ran surveys extends_ _ =>
      refine .inl ⟨draft, by rw [ran]; rfl, Drafting.not_crowded_of_offsets
        (Drafting.exists_offset_of_mentions ran)⟩
  | misses missing failed found => cases live.symm.trans found
  | full failed crowded => exact .inr ⟨by rw [failed]; rfl, crowded⟩

end HeapSampler
