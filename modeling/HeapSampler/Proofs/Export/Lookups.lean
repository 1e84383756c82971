import Mathlib
import HeapSampler.Proofs.Export.Resolve

/-!
# What a draft looks up

Drafting looks up the tags of the samples first and then their places, each place with the two
strings of its function.  It fails at the first reference that is missing, or when there are more
strings than offsets.  The strings of a function that has a number already are not looked up again;
they were when it got its number.
-/

namespace HeapSampler

open Pprof (StringOffset)

namespace Reference

/-- The id leads somewhere; that of the empty string always does. -/
def isLive (tables : Tables) : Reference → Bool
  | text id => (tables.strings.lookup? id).isSome
  | place id => (tables.functions.lookup? id).isSome

def cause : Reference → EncodeError
  | text id => .unknownString id.value
  | place id => .unknownLocation id.value

end Reference

def Tag.references (tag : Tag) : List Reference := [.text tag.key, .text tag.value]

def placesOf (samples : List Sample) : List LocationId :=
  (((samples.flatMap (·.locations)).map (·.value)).toFinset.sort).map (⟨·⟩)

namespace Tables

def placeReferences (tables : Tables) (id : LocationId) : List Reference :=
  .place id ::
    match tables.functions.lookup? id with
    | some place => [.text place.name, .text place.file]
    | none => []

/-- All references of the samples, in the order in which they count. -/
def references (tables : Tables) (samples : List Sample) : List Reference :=
  (samples.flatMap fun own => own.tags.flatMap Tag.references) ++
    (placesOf samples).flatMap tables.placeReferences

def firstMissing? (tables : Tables) (references : List Reference) : Option Reference :=
  references.find? fun reference => !reference.isLive tables

section FirstMissing

variable {tables : Tables} {references more : List Reference}

theorem firstMissing?_eq_none_iff :
    tables.firstMissing? references = none ↔
      ∀ reference ∈ references, reference.isLive tables = true := by
  simp [firstMissing?]

theorem firstMissing?_append_of_live (live : tables.firstMissing? references = none) :
    tables.firstMissing? (references ++ more) = tables.firstMissing? more := by
  rw [firstMissing?] at live
  rw [firstMissing?, List.find?_append, live, Option.none_or]
  rfl

theorem firstMissing?_append_of_missing {missing : Reference}
    (found : tables.firstMissing? references = some missing) :
    tables.firstMissing? (references ++ more) = some missing := by
  rw [firstMissing?] at found
  rw [firstMissing?, List.find?_append, found, Option.some_or]

end FirstMissing

end Tables

/-- The places are looked up in this order. -/
theorem referenced_eq_placesOf (samples : List Sample) :
    Drafting.referenced samples = placesOf samples := by
  have strict := Drafting.referenced_ascending samples
  have nodup : ((Drafting.referenced samples).map (·.value)).Nodup :=
    (List.pairwise_map.mpr strict).imp Nat.ne_of_lt
  have ascending : ((Drafting.referenced samples).map (·.value)).Pairwise (· ≤ ·) :=
    (List.pairwise_map.mpr strict).imp Nat.le_of_lt
  have same : ((Drafting.referenced samples).map (·.value)).toFinset =
      ((samples.flatMap (·.locations)).map (·.value)).toFinset := by
    ext value
    simp only [List.mem_toFinset, List.mem_map, Drafting.mem_referenced, List.mem_flatMap]
  rw [placesOf, ← same, (List.toFinset_sort _ nodup).mpr ascending, List.map_map]
  exact (List.map_id _).symm

theorem mem_placesOf {samples : List Sample} {id : LocationId} :
    id ∈ placesOf samples ↔ ∃ own ∈ samples, id ∈ own.locations := by
  rw [← referenced_eq_placesOf]
  exact Drafting.mem_referenced

structure Sample.IsLive (tables : Tables) (own : Sample) : Prop where
  key : ∀ tag ∈ own.tags, (tables.strings.lookup? tag.key).isSome = true
  value : ∀ tag ∈ own.tags, (tables.strings.lookup? tag.value).isSome = true
  place : ∀ id ∈ own.locations, ∃ place, tables.functions.lookup? id = some place ∧
    (tables.strings.lookup? place.name).isSome = true ∧
    (tables.strings.lookup? place.file).isSome = true

section Live

variable {tables : Tables} {samples : List Sample}

theorem Tables.placeReferences_live_iff {id : LocationId} :
    (∀ reference ∈ tables.placeReferences id, reference.isLive tables = true) ↔
      ∃ place, tables.functions.lookup? id = some place ∧
        (tables.strings.lookup? place.name).isSome = true ∧
        (tables.strings.lookup? place.file).isSome = true := by
  unfold placeReferences
  cases found : tables.functions.lookup? id with
  | none => simp [Reference.isLive, found]
  | some place => simp [Reference.isLive, found]

/-- No reference is missing if no sample has one that is missing. -/
theorem Tables.firstMissing?_references_eq_none_iff :
    tables.firstMissing? (tables.references samples) = none ↔
      ∀ own ∈ samples, own.IsLive tables := by
  rw [firstMissing?_eq_none_iff, references, List.forall_mem_append]
  constructor
  · rintro ⟨tags_live, places_live⟩ own listed
    have tag_live : ∀ tag ∈ own.tags, ∀ reference ∈ tag.references,
        reference.isLive tables = true := fun tag tag_listed reference member =>
      tags_live reference (List.mem_flatMap.mpr
        ⟨own, listed, List.mem_flatMap.mpr ⟨tag, tag_listed, member⟩⟩)
    refine ⟨fun tag tag_listed => tag_live tag tag_listed (.text tag.key) List.mem_cons_self,
      fun tag tag_listed => tag_live tag tag_listed (.text tag.value) (by simp [Tag.references]),
      fun id id_listed => placeReferences_live_iff.mp fun reference member => ?_⟩
    exact places_live reference
      (List.mem_flatMap.mpr ⟨id, mem_placesOf.mpr ⟨own, listed, id_listed⟩, member⟩)
  · intro live
    constructor
    · intro reference member
      obtain ⟨own, listed, member⟩ := List.mem_flatMap.mp member
      obtain ⟨tag, tag_listed, member⟩ := List.mem_flatMap.mp member
      rw [Tag.references, List.mem_pair] at member
      rcases member with rfl | rfl
      · exact (live own listed).key tag tag_listed
      · exact (live own listed).value tag tag_listed
    · intro reference member
      obtain ⟨id, id_listed, member⟩ := List.mem_flatMap.mp member
      obtain ⟨own, listed, own_id⟩ := mem_placesOf.mp id_listed
      exact placeReferences_live_iff.mpr ((live own listed).place id own_id) reference member

end Live

namespace Drafting

variable {α β : Type} {tables : Tables} {samples : List Sample} {Expected : String → Prop}
  {before after : Numbering} {references more : List Reference}

/-- No string has two offsets, all of them are expected, and the functions that have a number have
both of their strings. -/
structure Surveys (tables : Tables) (Expected : String → Prop) (numbering : Numbering) : Prop where
  nodup : numbering.strings.toList.Nodup
  expected : ∀ text ∈ numbering.strings, Expected text
  functions_live : ∀ key ∈ numbering.functions,
    tables.firstMissing? [.text key.1, .text key.2] = none

def Crowded (Expected : String → Prop) : Prop :=
  ∃ texts : List String, texts.Nodup ∧ (∀ text ∈ texts, Expected text) ∧ 2 ^ 32 < texts.length

theorem Crowded.mono {Others : String → Prop} (crowded : Crowded Expected)
    (known : ∀ {text : String}, Expected text → Others text) : Crowded Others := by
  obtain ⟨texts, nodup, expected, many⟩ := crowded
  exact ⟨texts, nodup, fun text listed => known (expected text listed), many⟩

inductive Ends (tables : Tables) (Expected : String → Prop) (references : List Reference)
    (step : Drafting α) (before : Numbering) : Prop where
  | drafts (value : α) (after : Numbering) (ran : step.run before = .ok (value, after))
      (surveys : Surveys tables Expected after) (extends_ : before.Extends after)
      (live : tables.firstMissing? references = none)
  | misses (missing : Reference) (failed : step.run before = .error missing.cause)
      (found : tables.firstMissing? references = some missing)
  | full (failed : step.run before = .error .storageFull) (crowded : Crowded Expected)

/-- A step that gives offsets to expected strings alone, and looks up these references. -/
def Examines (tables : Tables) (Expected : String → Prop) (references : List Reference)
    (step : Drafting α) : Prop :=
  ∀ before : Numbering, Surveys tables Expected before → Ends tables Expected references step before

namespace Examines

theorem pure (value : α) : Examines tables Expected [] (Pure.pure value : Drafting α) :=
  fun before surveys => .drafts value before rfl surveys (.refl _) rfl

theorem throw (missing : Reference) (dead : missing.isLive tables = false) :
    Examines tables Expected [missing] (throw missing.cause : Drafting α) :=
  fun _ _ => .misses missing rfl (by simp [Tables.firstMissing?, dead])

/-- The second step is taken only if no reference of the first is missing. -/
theorem bind {step : Drafting α} {next : α → Drafting β}
    (first : Examines tables Expected references step)
    (later : ∀ value, tables.firstMissing? references = none →
      Examines tables Expected more (next value)) :
    Examines tables Expected (references ++ more) (step >>= next) := by
  intro before surveys
  cases first before surveys with
  | drafts value middle ran surveys' extends_ live =>
      have run_eq : (step >>= next).run before = (next value).run middle := by
        rw [StateT.run_bind, ran]
        rfl
      have missing_eq : tables.firstMissing? (references ++ more) = tables.firstMissing? more :=
        Tables.firstMissing?_append_of_live live
      cases later value live middle surveys' with
      | drafts last after ran' surveys'' extends_' live' =>
          exact .drafts last after (run_eq.trans ran') surveys'' (extends_.trans extends_')
            (missing_eq.trans live')
      | misses missing failed found =>
          exact .misses missing (run_eq.trans failed) (missing_eq.trans found)
      | full failed crowded => exact .full (run_eq.trans failed) crowded
  | misses missing failed found =>
      refine .misses missing ?_ (Tables.firstMissing?_append_of_missing found)
      rw [StateT.run_bind, failed]
      rfl
  | full failed crowded =>
      refine .full ?_ crowded
      rw [StateT.run_bind, failed]
      rfl

theorem bind_done {step : Drafting α} {next : α → Drafting β}
    (first : Examines tables Expected references step)
    (later : ∀ value, tables.firstMissing? references = none →
      Examines tables Expected [] (next value)) :
    Examines tables Expected references (step >>= next) := by
  have both := first.bind later
  rwa [List.append_nil] at both

/-- What a step does may depend on the offsets and numbers that have been given out. -/
theorem get_bind {next : Numbering → Drafting β}
    (later : ∀ numbering, Surveys tables Expected numbering →
      Examines tables Expected references (next numbering)) :
    Examines tables Expected references (get >>= next) := by
  intro before surveys
  cases later before surveys before surveys with
  | drafts value after ran surveys' extends_ live =>
      exact .drafts value after ran surveys' extends_ live
  | misses missing failed found => exact .misses missing failed found
  | full failed crowded => exact .full failed crowded

/-- A reference that leads somewhere does not count. -/
theorem cons {step : Drafting α} {reference : Reference} (live : reference.isLive tables = true)
    (examines : Examines tables Expected references step) :
    Examines tables Expected (reference :: references) step := by
  have missing_eq : tables.firstMissing? (reference :: references) =
      tables.firstMissing? references :=
    Tables.firstMissing?_append_of_live
      (show tables.firstMissing? [reference] = none by simp [Tables.firstMissing?, live])
  intro before surveys
  cases examines before surveys with
  | drafts value after ran surveys' extends_ live' =>
      exact .drafts value after ran surveys' extends_ (missing_eq.trans live')
  | misses missing failed found => exact .misses missing failed (missing_eq.trans found)
  | full failed crowded => exact .full failed crowded

theorem mapM {step : α → Drafting β} {items : List α} {own : α → List Reference}
    (each : ∀ item ∈ items, Examines tables Expected (own item) (step item)) :
    Examines tables Expected (items.flatMap own) (items.mapM step) := by
  induction items with
  | nil => exact pure []
  | cons item rest ih =>
      obtain ⟨first, others⟩ := List.forall_mem_cons.mp each
      rw [List.mapM_cons, List.flatMap_cons]
      exact first.bind fun value _ => (ih others).bind_done fun values _ => pure (value :: values)

theorem run_cases {step : Drafting α} (examines : Examines tables Expected references step)
    (surveys : Surveys tables Expected before) {value : α}
    (ran : step.run before = .ok (value, after)) :
    Surveys tables Expected after ∧ before.Extends after := by
  cases examines before surveys with
  | drafts other last ran' surveys' extends_ live =>
      cases ran.symm.trans ran'
      exact ⟨surveys', extends_⟩
  | misses missing failed found => cases ran.symm.trans failed
  | full failed crowded => cases ran.symm.trans failed

end Examines

/-! ## Strings -/

theorem surveys_empty (tables : Tables) (Expected : String → Prop) :
    Surveys tables Expected {} where
  nodup := .nil
  expected text member := by simp at member
  functions_live key member := by simp at member

theorem Surveys.push {text : String} (surveys : Surveys tables Expected before)
    (expected : Expected text) (fresh : text ∉ before.strings) :
    Surveys tables Expected { before with strings := before.strings.push text } where
  nodup := by
    rw [Array.toList_push]
    refine List.nodup_append.mpr ⟨surveys.nodup, List.nodup_singleton _, ?_⟩
    rintro other member _ last rfl
    exact fresh (List.mem_singleton.mp last ▸ Array.mem_toList_iff.mp member)
  expected other member := by
    rcases Array.mem_push.mp member with kept | rfl
    · exact surveys.expected other kept
    · exact expected
  functions_live := surveys.functions_live

/-- If an offset is too large there are too many strings. -/
theorem Surveys.crowded (surveys : Surveys tables Expected before) {index : Nat}
    (refused : StringOffset.ofNat? index = none) (inside : index < before.strings.size) :
    Crowded Expected := by
  refine ⟨before.strings.toList, surveys.nodup, fun text member =>
    surveys.expected text (Array.mem_toList_iff.mp member), ?_⟩
  unfold StringOffset.ofNat? at refused
  split at refused
  · cases refused
  · rename_i large
    rw [Array.length_toList]
    simp only [UInt32.size] at large
    omega

theorem examines_offsetOf {text : String} (expected : Expected text) :
    Examines tables Expected [] (offsetOf text) := by
  intro before surveys
  cases found : before.strings.idxOf? text with
  | some index =>
      have inside := (Array.getElem?_eq_some_iff.mp (getElem?_of_idxOf? found)).1
      cases made : StringOffset.ofNat? index with
      | some offset =>
          refine .drafts offset before ?_ surveys (.refl _) rfl
          simp only [offsetOf, StateT.run_bind, StateT.run_get, pure_bind, found, made]
          rfl
      | none =>
          refine .full ?_ (surveys.crowded made inside)
          simp only [offsetOf, StateT.run_bind, StateT.run_get, pure_bind, found, made]
          rfl
  | none =>
      have surveys' := surveys.push expected (not_mem_of_idxOf? found)
      cases made : StringOffset.ofNat? before.strings.size with
      | some offset =>
          refine .drafts offset _ ?_ surveys' ⟨fun kept => getElem?_push_of_some kept text, id⟩ rfl
          simp only [offsetOf, StateT.run_bind, StateT.run_get, pure_bind, found, made]
          rfl
      | none =>
          refine .full ?_ (surveys'.crowded made (by simp))
          simp only [offsetOf, StateT.run_bind, StateT.run_get, pure_bind, found, made]
          rfl

def Foresees (tables : Tables) (Expected : String → Prop) (references : List Reference) : Prop :=
  ∀ id, .text id ∈ references → ∀ text, tables.strings.lookup? id = some text → Expected text

theorem Foresees.mono (foresees : Foresees tables Expected more) (fewer : references ⊆ more) :
    Foresees tables Expected references :=
  fun id listed => foresees id (fewer listed)

theorem Foresees.of_mem {items : List α} {own : α → List Reference} {item : α}
    (foresees : Foresees tables Expected (items.flatMap own)) (listed : item ∈ items) :
    Foresees tables Expected (own item) :=
  foresees.mono fun _ member => List.mem_flatMap.mpr ⟨item, listed, member⟩

theorem examines_offsetOfId {id : StringId} (foresees : Foresees tables Expected [.text id]) :
    Examines tables Expected [.text id] (offsetOfId tables.strings id) := by
  unfold offsetOfId
  split
  · rename_i text found
    exact .cons (by simp [Reference.isLive, found])
      (examines_offsetOf (foresees id List.mem_cons_self text found))
  · rename_i absent
    exact .throw (.text id) (by simp [Reference.isLive, absent])

theorem examines_pair {first second : StringId} {next : StringOffset → StringOffset → Drafting β}
    (foresees : Foresees tables Expected [.text first, .text second])
    (later : tables.firstMissing? [.text first, .text second] = none → ∀ one two,
      Examines tables Expected [] (next one two)) :
    Examines tables Expected [.text first, .text second]
      (offsetOfId tables.strings first >>= fun one =>
        offsetOfId tables.strings second >>= fun two => next one two) := by
  refine (examines_offsetOfId (foresees.mono (by simp))).bind fun one first_live =>
    (examines_offsetOfId (foresees.mono (by simp))).bind_done fun two second_live => ?_
  exact later ((Tables.firstMissing?_append_of_live first_live).trans second_live) one two

theorem examines_label {tag : Tag} (foresees : Foresees tables Expected tag.references) :
    Examines tables Expected tag.references (label tables.strings tag) :=
  examines_pair foresees fun _ _ _ => .pure _

theorem examines_sample {own : Sample}
    (foresees : Foresees tables Expected (own.tags.flatMap Tag.references)) :
    Examines tables Expected (own.tags.flatMap Tag.references) (sample tables.strings own) :=
  (Examines.mapM fun _ listed => examines_label (foresees.of_mem listed)).bind_done
    fun _ _ => .pure _

theorem examines_sampleTypes (fixed : ∀ text ∈ fixedTexts, Expected text) :
    Examines tables Expected [] sampleTypes :=
  .bind_done (examines_offsetOf (fixed _ (by decide))) fun _ _ =>
    .bind_done (examines_offsetOf (fixed _ (by decide))) fun _ _ =>
      .bind_done (examines_offsetOf (fixed _ (by decide))) fun _ _ =>
        .bind_done (examines_offsetOf (fixed _ (by decide))) fun _ _ => .pure _

/-! ## Places -/

/-- A function whose strings are there may get a number. -/
theorem examines_withFunction {place : Place}
    (live : tables.firstMissing? [.text place.name, .text place.file] = none)
    (name filename : StringOffset) (number : UInt64) :
    Examines tables Expected [] (modify fun later : Numbering =>
      { later with
        functions := later.functions.push (place.name, place.file)
        messages :=
          later.messages.push { id := number, name, systemName := name, filename } }) := by
  intro before surveys
  refine .drafts _ _ rfl { surveys with functions_live := fun key member => ?_ }
    ⟨fun kept => kept, fun kept => getElem?_push_of_some kept _⟩ rfl
  rcases Array.mem_push.mp member with known | rfl
  · exact surveys.functions_live key known
  · exact live

/-- Skipping the strings of a function that has a number skips nothing that is missing. -/
theorem examines_functionNumber {place : Place}
    (foresees : Foresees tables Expected [.text place.name, .text place.file]) :
    Examines tables Expected [.text place.name, .text place.file]
      (functionNumber tables.strings place) := by
  refine .get_bind fun numbering surveys => ?_
  split
  · rename_i index found
    have live := surveys.functions_live _ (Array.mem_of_getElem? (getElem?_of_idxOf? found))
    exact fun before surveys' => .drafts _ before rfl surveys' (.refl _) live
  · exact examines_pair foresees fun live name filename =>
      (examines_withFunction live name filename _).bind_done fun _ _ => .pure _

theorem examines_location {id : LocationId}
    (foresees : Foresees tables Expected (tables.placeReferences id)) :
    Examines tables Expected (tables.placeReferences id) (location tables id) := by
  unfold Tables.placeReferences at foresees ⊢
  unfold location
  cases found : tables.functions.lookup? id with
  | none => exact .throw (.place id) (by simp [Reference.isLive, found])
  | some place =>
      rw [found] at foresees
      have numbered := examines_functionNumber (foresees.mono (List.subset_cons_self _ _))
      exact .cons (by simp [Reference.isLive, found]) (numbered.bind_done fun number _ => .pure _)

/-! ## The whole draft -/

/-- Everything that is drafted after the fixed strings. -/
theorem examines_contents (foresees : Foresees tables Expected (tables.references samples))
    (types : List Pprof.Outgoing.ValueType) :
    Examines tables Expected (tables.references samples) do
      let drafted ← samples.mapM (sample tables.strings)
      let locations ← (referenced samples).mapM (location tables)
      let numbering ← get
      return ({
        sampleTypes := types
        samples := drafted
        locations
        functions := numbering.messages.toList
        strings := numbering.strings
        defaultSampleType := (types[1]?.map (·.type)).getD .zero } : Draft) := by
  have tags_foreseen := foresees.mono (List.subset_append_left _ _)
  have places_foreseen := foresees.mono (List.subset_append_right _ _)
  rw [referenced_eq_placesOf]
  refine Examines.bind (.mapM fun own listed => examines_sample (tags_foreseen.of_mem listed))
    fun drafted _ => Examines.bind_done
      (.mapM fun id listed => examines_location (places_foreseen.of_mem listed))
      fun locations _ => .get_bind fun numbering _ => .pure _

theorem examines_draft (fixed : ∀ text ∈ fixedTexts, Expected text)
    (foresees : Foresees tables Expected (tables.references samples)) :
    Examines tables Expected (tables.references samples) (draft tables samples) :=
  (examines_offsetOf (fixed _ (by decide))).bind fun _ _ =>
    (examines_sampleTypes fixed).bind fun types _ => examines_contents foresees types

end Drafting

end HeapSampler
