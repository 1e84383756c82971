import Mathlib
import HeapSampler.Proofs.Export.Numbering

/-!
# What a draft says

Each sample of a draft says the places and the tags of the sample that it was drafted from, and
each place that a sample refers to is drafted once.
-/

namespace HeapSampler

open Pprof (StringOffset)

namespace Drafting

variable {before after : Numbering} {tables : Tables}

/-! ## Samples -/

def Labels (tables : Tables) (numbering : Numbering) (tag : Tag) (label : Pprof.Outgoing.Label) :
    Prop :=
  ∃ key value, tables.tag? tag = some (key, value) ∧ label = .ofString label.key label.str ∧
    numbering.string? label.key = some key ∧ numbering.string? label.str = some value

theorem Labels.mono {tag : Tag} {message : Pprof.Outgoing.Label} (extends_ : before.Extends after)
    (labels : Labels tables before tag message) : Labels tables after tag message := by
  obtain ⟨key, value, found, plain, keyed, valued⟩ := labels
  exact ⟨key, value, found, plain, extends_.string?_keeps keyed, extends_.string?_keeps valued⟩

theorem labels_of_label {tag : Tag} {message : Pprof.Outgoing.Label}
    (ran : (label tables.strings tag).run before = .ok (message, after)) :
    ∃ pair, tables.tag? tag = some pair ∧ AddsStrings [pair.1, pair.2] before after ∧
      Labels tables after tag message := by
  unfold label at ran
  obtain ⟨key, keyed, key_ran, ran⟩ := run_bind ran
  obtain ⟨value, valued, value_ran, ran⟩ := run_bind ran
  cases ran
  obtain ⟨key_text, key_found, key_adds, key_named⟩ := adds_of_offsetOfId key_ran
  obtain ⟨value_text, value_found, value_adds, value_named⟩ := adds_of_offsetOfId value_ran
  have found : tables.tag? tag = some (key_text, value_text) := by
    simp [Tables.tag?, key_found, value_found]
  exact ⟨_, found, key_adds.trans value_adds, key_text, value_text, found, rfl,
    value_adds.extends_.string?_keeps key_named, value_named⟩

structure Samples (tables : Tables) (numbering : Numbering) (own : Sample)
    (message : Pprof.Outgoing.Sample) : Prop where
  locationIds_eq : message.locationIds = own.locations.map LocationId.toPprof
  values_eq : message.values = [1, sizeValue own.size]
  labels : List.Forall₂ (Labels tables numbering) own.tags message.labels

theorem Samples.mono {own : Sample} {message : Pprof.Outgoing.Sample}
    (extends_ : before.Extends after) (samples : Samples tables before own message) :
    Samples tables after own message :=
  { samples with labels := samples.labels.imp fun _ _ => Labels.mono extends_ }

/-- What is true while samples are drafted: their strings are those that are looked for. -/
structure Gathers (tables : Tables) (Expected : String → Prop) (numbering : Numbering) : Prop where
  sound : numbering.Sound tables.strings
  expected : ∀ text ∈ numbering.strings, Expected text

theorem Gathers.add {Expected : String → Prop} {added : List String}
    (gathers : Gathers tables Expected before) (adds : AddsStrings added before after)
    (known : ∀ text ∈ added, Expected text) : Gathers tables Expected after where
  sound := adds.sound gathers.sound
  expected text member := (adds.known text member).elim (gathers.expected text) (known text)

theorem samples_of_sample {Expected : String → Prop} {own : Sample}
    {message : Pprof.Outgoing.Sample} (gathers : Gathers tables Expected before)
    (fewest : before.functions = #[])
    (known : ∀ tag ∈ own.tags, ∀ pair, tables.tag? tag = some pair →
      Expected pair.1 ∧ Expected pair.2)
    (ran : (sample tables.strings own).run before = .ok (message, after)) :
    Gathers tables Expected after ∧ after.functions = #[] ∧ before.Extends after ∧
      Samples tables after own message := by
  unfold sample at ran
  obtain ⟨labels, labelled, labels_ran, ran⟩ := run_bind ran
  cases ran
  obtain ⟨⟨gathers', fewest'⟩, extends_, found⟩ := run_mapM
    (fun _ numbering => Gathers tables Expected numbering ∧ numbering.functions = #[])
    (Labels tables) 0
    (fun tag listed _ before after value holds ran => by
      obtain ⟨pair, pair_found, adds, labels⟩ := labels_of_label ran
      have both := known tag listed pair pair_found
      exact ⟨⟨holds.1.add adds (by simpa using both), adds.functions_eq.trans holds.2⟩,
        adds.extends_, labels⟩)
    Labels.mono ⟨gathers, fewest⟩ labels_ran
  exact ⟨gathers', fewest', extends_, rfl, rfl, found⟩

/-! ## Places -/

def Locates (tables : Tables) (numbering : Numbering) (id : LocationId)
    (message : Pprof.Outgoing.Location) : Prop :=
  ∃ place number, tables.place? id = some place ∧
    message =
      { id := id.toPprof, line := { functionId := number, line := .ofNat place.line.toNat } } ∧
    numbering.Names number place.functionName place.fileName

theorem Locates.mono {id : LocationId} {message : Pprof.Outgoing.Location}
    (extends_ : before.Extends after) (locates : Locates tables before id message) :
    Locates tables after id message := by
  obtain ⟨place, number, found, same, named⟩ := locates
  exact ⟨place, number, found, same, extends_.names_keep named⟩

theorem locates_of_location {Expected : String → Prop} {id : LocationId}
    {message : Pprof.Outgoing.Location} (gathers : Gathers tables Expected before)
    (known : ∀ place, tables.place? id = some place →
      Expected place.functionName ∧ Expected place.fileName)
    (ran : (location tables id).run before = .ok (message, after)) :
    Gathers tables Expected after ∧ after.functions.size ≤ before.functions.size + 1 ∧
      before.Extends after ∧ Locates tables after id message := by
  unfold location at ran
  split at ran
  · cases ran
  · rename_i place found
    obtain ⟨number, numbered, number_ran, ran⟩ := run_bind ran
    cases ran
    obtain ⟨sound', extends_, size_le, functionName, fileName, name_found, file_found, named,
      texts⟩ := names_of_functionNumber gathers.sound number_ran
    have place_found : tables.place? id = some ⟨functionName, fileName, place.line⟩ := by
      simp [Tables.place?, FunctionTable.resolve?, found, name_found, file_found]
    have both := known _ place_found
    refine ⟨⟨sound', fun text member => ?_⟩, size_le, extends_, _, number, place_found, rfl, named⟩
    rcases texts text member with old | new
    · exact gathers.expected text old
    · have each : ∀ text ∈ [functionName, fileName], Expected text := by simpa using both
      exact each text new

theorem mem_referenced {samples : List Sample} {id : LocationId} :
    id ∈ referenced samples ↔ ∃ sample ∈ samples, id ∈ sample.locations := by
  have members := (eraseReps_of_ascending (mergeSort_ascending
    ((samples.flatMap (·.locations)).map (·.value)))).2
  simp only [referenced, List.mem_map, members, List.mem_mergeSort, List.mem_flatMap]
  constructor
  · rintro ⟨_, ⟨own, listed, rfl⟩, rfl⟩
    exact listed
  · intro listed
    exact ⟨id.value, ⟨id, listed, rfl⟩, rfl⟩

/-- The places of a draft ascend by id. -/
theorem referenced_ascending (samples : List Sample) :
    (referenced samples).Pairwise fun first second => first.value < second.value := by
  simp only [referenced, List.pairwise_map]
  exact (eraseReps_of_ascending (mergeSort_ascending _)).1

/-! ## The whole draft -/

def fixedTexts : List String :=
  ["", "retained_objects", "count", "retained_size", "bytes"]

/-- A string that a profile of these samples needs. -/
def Mentions (tables : Tables) (samples : List Sample) (text : String) : Prop :=
  text ∈ fixedTexts ∨ ∃ own ∈ samples,
    (∃ tag ∈ own.tags, ∃ pair, tables.tag? tag = some pair ∧ (text = pair.1 ∨ text = pair.2)) ∨
    ∃ id ∈ own.locations, ∃ place, tables.place? id = some place ∧
      (text = place.functionName ∨ text = place.fileName)

/-- A draft says what its samples say, with the offsets and numbers of one numbering. -/
structure Describes (tables : Tables) (samples : List Sample) (numbering : Numbering)
    (draft : Draft) : Prop where
  sound : numbering.Sound tables.strings
  mentioned : ∀ text ∈ numbering.strings, Mentions tables samples text
  functions_le : numbering.functions.size ≤ (referenced samples).length
  sampleTypes_ne : draft.sampleTypes ≠ []
  sampled : List.Forall₂ (Samples tables numbering) samples draft.samples
  located : List.Forall₂ (Locates tables numbering) (referenced samples) draft.locations
  functions_eq : draft.functions = numbering.messages.toList
  strings_eq : draft.strings = numbering.strings

theorem adds_of_sampleTypes {types : List Pprof.Outgoing.ValueType}
    (ran : sampleTypes.run before = .ok (types, after)) :
    AddsStrings fixedTexts.tail before after ∧ types ≠ [] := by
  unfold sampleTypes at ran
  obtain ⟨objects, first, objects_ran, ran⟩ := run_bind ran
  obtain ⟨count, second, count_ran, ran⟩ := run_bind ran
  obtain ⟨size, third, size_ran, ran⟩ := run_bind ran
  obtain ⟨bytes, fourth, bytes_ran, ran⟩ := run_bind ran
  cases ran
  exact ⟨(((adds_of_offsetOf objects_ran).1.trans (adds_of_offsetOf count_ran).1).trans
    (adds_of_offsetOf size_ran).1).trans (adds_of_offsetOf bytes_ran).1, List.cons_ne_nil _ _⟩

/-- The samples are drafted first, then their places; nothing has a number before that. -/
theorem sampled_of_draft {samples : List Sample} {draft : Draft}
    (ran : (Drafting.draft tables samples).run {} = .ok (draft, after)) :
    ∃ sampled, Gathers tables (Mentions tables samples) sampled ∧ sampled.functions = #[] ∧
      draft.sampleTypes ≠ [] ∧ List.Forall₂ (Samples tables sampled) samples draft.samples ∧
      ((referenced samples).mapM (location tables)).run sampled = .ok (draft.locations, after) ∧
      draft.functions = after.messages.toList ∧ draft.strings = after.strings := by
  unfold Drafting.draft at ran
  obtain ⟨blank, first, blank_ran, ran⟩ := run_bind ran
  obtain ⟨types, second, types_ran, ran⟩ := run_bind ran
  obtain ⟨drafted, third, samples_ran, ran⟩ := run_bind ran
  obtain ⟨locations, fourth, locations_ran, ran⟩ := run_bind ran
  obtain ⟨numbering, fifth, got, ran⟩ := run_bind ran
  cases got
  cases ran
  obtain ⟨types_adds, types_ne⟩ := adds_of_sampleTypes types_ran
  have adds := (adds_of_offsetOf blank_ran).1.trans types_adds
  have begun : Gathers tables (Mentions tables samples) second :=
    Gathers.add ⟨Numbering.sound_empty tables.strings, fun _ member => by simp at member⟩ adds
      fun _ => .inl
  obtain ⟨⟨gathers, none_yet⟩, -, sampled⟩ := run_mapM
    (fun _ numbering => Gathers tables (Mentions tables samples) numbering ∧
      numbering.functions = #[])
    (Samples tables) 0
    (fun own listed _ before after value holds ran => by
      obtain ⟨gathers, fewest, extends_, samples⟩ := samples_of_sample holds.1 holds.2
        (fun tag own_tag pair found =>
          ⟨.inr ⟨own, listed, .inl ⟨tag, own_tag, pair, found, .inl rfl⟩⟩,
            .inr ⟨own, listed, .inl ⟨tag, own_tag, pair, found, .inr rfl⟩⟩⟩) ran
      exact ⟨⟨gathers, fewest⟩, extends_, samples⟩)
    Samples.mono ⟨begun, adds.functions_eq⟩ samples_ran
  exact ⟨third, gathers, none_yet, types_ne, sampled, locations_ran, rfl, rfl⟩

theorem describes_of_draft {samples : List Sample} {draft : Draft}
    (ran : (Drafting.draft tables samples).run {} = .ok (draft, after)) :
    Describes tables samples after draft := by
  obtain ⟨third, third_gathers, none_yet, types_ne, sampled, locations_ran, functions_eq,
    strings_eq⟩ := sampled_of_draft ran
  obtain ⟨⟨gathers, size_le⟩, extends_, located⟩ := run_mapM
    (fun done numbering => Gathers tables (Mentions tables samples) numbering ∧
      numbering.functions.size ≤ done)
    (Locates tables) 0
    (fun id listed done before after value holds ran => by
      obtain ⟨own, own_listed, own_id⟩ := mem_referenced.mp listed
      obtain ⟨gathers, size_le, extends_, locates⟩ := locates_of_location holds.1
        (fun place found =>
          ⟨.inr ⟨own, own_listed, .inr ⟨id, own_id, place, found, .inl rfl⟩⟩,
            .inr ⟨own, own_listed, .inr ⟨id, own_id, place, found, .inr rfl⟩⟩⟩) ran
      exact ⟨⟨gathers, size_le.trans (Nat.succ_le_succ holds.2)⟩, extends_, locates⟩)
    Locates.mono ⟨third_gathers, by simp [none_yet]⟩ locations_ran
  rw [Nat.zero_add] at size_le
  exact ⟨gathers.sound, gathers.expected, size_le, types_ne,
    sampled.imp fun _ _ => Samples.mono extends_, located, functions_eq, strings_eq⟩

end Drafting

theorem Draft.exists_run {tables : Tables} {samples : List Sample} {draft : Draft}
    (drafted : Draft.ofSamples tables samples = .ok draft) :
    ∃ numbering, (Drafting.draft tables samples).run {} = .ok (draft, numbering) := by
  unfold Draft.ofSamples at drafted
  cases ran : (Drafting.draft tables samples).run {} with
  | error cause =>
      rw [StateT.run'_eq, ran] at drafted
      cases drafted
  | ok reached =>
      rw [StateT.run'_eq, ran] at drafted
      cases drafted
      exact ⟨reached.2, rfl⟩

theorem Draft.exists_describes {tables : Tables} {samples : List Sample} {draft : Draft}
    (drafted : Draft.ofSamples tables samples = .ok draft) :
    ∃ numbering, Drafting.Describes tables samples numbering draft := by
  obtain ⟨numbering, ran⟩ := Draft.exists_run drafted
  exact ⟨numbering, Drafting.describes_of_draft ran⟩

end HeapSampler
