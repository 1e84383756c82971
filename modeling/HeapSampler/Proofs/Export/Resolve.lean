import Mathlib
import HeapSampler.Proofs.Export.Draft
import HeapSampler.Export.Encode
import HeapSampler.Pprof.Resolved

/-!
# What the profile of a draft means

Every offset and every number of a draft leads to the string or the function that it was given out
for, so the profile resolves to what the samples and the tables say.
-/

namespace HeapSampler

open Pprof (StringOffset ResolvedFrame ResolvedSample)

def NamedPlace.frame (place : NamedPlace) : ResolvedFrame where
  functionName := place.functionName
  fileName := place.fileName
  line := Int64.ofNat place.line.toNat

def resolvedTag (tag : String × String) : Pprof.ResolvedTag := ⟨tag.1, tag.2⟩

/-- What a profile is to say of a sample with these places and tags: one object, and its size. -/
def resolvedSample (places : List NamedPlace) (tags : List (String × String))
    (size : Option UInt64) : ResolvedSample where
  frames := places.map NamedPlace.frame
  tags := Pprof.sorted (tags.map resolvedTag)
  objects := 1
  sizeBytes := Drafting.sizeValue size

/-- What a profile is to say of a sample, if all its references lead somewhere. -/
def Sample.resolved? (tables : Tables) (own : Sample) : Option ResolvedSample := do
  let places ← own.locations.mapM tables.place?
  let tags ← own.tags.mapM tables.tag?
  return resolvedSample places tags own.size

def Draft.received (draft : Draft) (options : ExportOptions) : Pprof.Profile where
  sampleTypes := draft.sampleTypes.map Pprof.Outgoing.ValueType.received
  samples := draft.samples.map Pprof.Outgoing.Sample.received
  locations := draft.locations.map Pprof.Outgoing.Location.received
  functions := draft.functions.map Pprof.Outgoing.Function.received
  strings := draft.strings.toList
  timeNanos := options.writtenTime
  durationNanos := options.writtenDuration
  defaultSampleType := draft.defaultSampleType.toInt64

def Tables.Bounded (tables : Tables) : Prop :=
  ∀ {id : LocationId} {place : Place}, tables.functions.lookup? id = some place →
    id.value ≤ InternSet.maxWord

theorem Tables.Balanced.bounded {tables : Tables} {texts : List StringId}
    {places : List LocationId} (balanced : tables.Balanced texts places) : tables.Bounded := by
  intro id place found
  obtain ⟨interned, present, -⟩ := Option.map_eq_some_iff.mp found
  exact balanced.functions.id_le present

namespace Drafting.Describes

variable {tables : Tables} {samples : List Sample} {numbering : Numbering} {draft : Draft}

theorem string?_eq (describes : Describes tables samples numbering draft) (options : ExportOptions)
    (offset : StringOffset) :
    (draft.received options).string? offset.toInt64 = numbering.string? offset := by
  have small := UInt32.toNat_lt offset.value
  have number : offset.toInt64.toInt = offset.toNat :=
    Int64.toInt_ofNat_of_lt (Nat.lt_trans small (by decide))
  rw [Pprof.Profile.string?, number, if_pos (Int.natCast_nonneg _), Int.toNat_natCast,
    Numbering.string?, ← describes.strings_eq]
  exact Array.getElem?_toList

theorem resolveString_eq (describes : Describes tables samples numbering draft)
    (options : ExportOptions) {offset : StringOffset} {text : String}
    (found : numbering.string? offset = some text) :
    (draft.received options).resolveString offset.toInt64 = .ok text := by
  rw [Pprof.Profile.resolveString, describes.string?_eq, found]

/-! ## Functions -/

theorem id_le (bounded : tables.Bounded) (describes : Describes tables samples numbering draft)
    {id : LocationId} (listed : id ∈ referenced samples) : id.value ≤ InternSet.maxWord := by
  obtain ⟨message, -, place, number, found, -⟩ := exists_right describes.located listed
  obtain ⟨key, key_found, -⟩ := Option.bind_eq_some_iff.mp found
  exact bounded key_found

theorem messages_size_le (bounded : tables.Bounded)
    (describes : Describes tables samples numbering draft) :
    numbering.messages.size ≤ InternSet.maxWord + 1 := by
  have nodup : ((referenced samples).map (·.value)).Nodup :=
    (List.pairwise_map.mpr (referenced_ascending samples)).imp Nat.ne_of_lt
  have inside : (referenced samples).map (·.value) ⊆ List.range (InternSet.maxWord + 1) := by
    intro value member
    obtain ⟨id, listed, rfl⟩ := List.mem_map.mp member
    exact List.mem_range.mpr (Nat.lt_succ_of_le (describes.id_le bounded listed))
  have shorter := (nodup.subperm inside).length_le
  rw [List.length_map, List.length_range] at shorter
  exact (describes.sound.messages_size.trans_le describes.functions_le).trans shorter

/-- Numbers are as far from the end of their words as ids are. -/
theorem toNat_number (bounded : tables.Bounded)
    (describes : Describes tables samples numbering draft) {index : Nat}
    (below : index < numbering.messages.size) : (UInt64.ofNat (index + 1)).toNat = index + 1 := by
  have few := describes.messages_size_le bounded
  refine UInt64.toNat_ofNat_of_lt' ?_
  simp only [InternSet.maxWord] at few
  simp only [UInt64.size]
  omega

theorem toNat_toPprof (bounded : tables.Bounded)
    (describes : Describes tables samples numbering draft) {id : LocationId}
    (listed : id ∈ referenced samples) : id.toPprof.toNat = id.value := by
  have small := describes.id_le bounded listed
  refine UInt64.toNat_ofNat_of_lt' ?_
  simp only [InternSet.maxWord] at small
  simp only [UInt64.size]
  omega

/-- Numbers that have been given out lead to the functions that they were given out for. -/
theorem resolveLine_eq (bounded : tables.Bounded)
    (describes : Describes tables samples numbering draft) (options : ExportOptions)
    {number : UInt64} {name file : String} (named : numbering.Names number name file)
    (line : Int64) :
    number ≠ 0 ∧ (draft.received options).resolveLine { functionId := number, line } =
      .ok { functionName := name, fileName := file, line } := by
  obtain ⟨index, message, found, rfl, name_found, file_found⟩ := named
  have inside := (Array.getElem?_eq_some_iff.mp found).1
  refine ⟨fun zero => ?_, ?_⟩
  · have := congrArg UInt64.toNat zero
    rw [describes.toNat_number bounded inside] at this
    cases this
  · have listed : message.received ∈ (draft.received options).functions.reverse := by
      rw [List.mem_reverse, Draft.received, describes.functions_eq]
      exact List.mem_map_of_mem (Array.mem_toList_iff.mpr (Array.mem_of_getElem? found))
    obtain ⟨other, other_found, other_listed, other_id⟩ := exists_find?
      (fun function => function.id = UInt64.ofNat (index + 1)) listed
      (decide_eq_true (describes.sound.id_eq found))
    rw [List.mem_reverse, Draft.received, describes.functions_eq] at other_listed
    obtain ⟨own, own_listed, rfl⟩ := List.mem_map.mp other_listed
    obtain ⟨place, place_found⟩ := Array.mem_iff_getElem?.mp (Array.mem_toList_iff.mp own_listed)
    have place_id : UInt64.ofNat (place + 1) = UInt64.ofNat (index + 1) :=
      (describes.sound.id_eq place_found).symm.trans (of_decide_eq_true other_id)
    have same := congrArg UInt64.toNat place_id
    rw [describes.toNat_number bounded (Array.getElem?_eq_some_iff.mp place_found).1,
      describes.toNat_number bounded inside] at same
    cases Nat.succ.inj same
    cases place_found.symm.trans found
    have function_eq : (draft.received options).function? (UInt64.ofNat (index + 1)) =
        some message.received := other_found
    simp only [Pprof.Profile.resolveLine, function_eq]
    rw [show message.received.name = message.name.toInt64 from rfl,
      show message.received.filename = message.filename.toInt64 from rfl,
      describes.resolveString_eq options name_found, describes.resolveString_eq options file_found]
    rfl

/-! ## Places -/

/-- The id of a place leads to its one frame. -/
theorem resolveLocation_eq (bounded : tables.Bounded)
    (describes : Describes tables samples numbering draft) (options : ExportOptions)
    {id : LocationId} (listed : id ∈ referenced samples) :
    ∃ place, tables.place? id = some place ∧
      (draft.received options).resolveLocation id.toPprof = .ok [place.frame] := by
  obtain ⟨message, drafted, own_locates⟩ := exists_right describes.located listed
  have received_listed : message.received ∈ (draft.received options).locations.reverse :=
    List.mem_reverse.mpr (List.mem_map_of_mem drafted)
  obtain ⟨found, found_eq, found_listed, found_id⟩ := exists_find?
    (fun location => location.id = id.toPprof) received_listed
    (by
      obtain ⟨place, number, -, rfl, -⟩ := own_locates
      exact decide_eq_true rfl)
  rw [List.mem_reverse] at found_listed
  obtain ⟨other, other_drafted, rfl⟩ := List.mem_map.mp found_listed
  obtain ⟨other_id, other_listed, place, number, place_found, rfl, named⟩ :=
    exists_left describes.located other_drafted
  have same := congrArg UInt64.toNat (of_decide_eq_true found_id :
    other_id.toPprof = id.toPprof)
  rw [describes.toNat_toPprof bounded other_listed, describes.toNat_toPprof bounded listed] at same
  obtain rfl : other_id = id := by
    cases other_id
    cases id
    exact congrArg LocationId.mk same
  refine ⟨place, place_found, ?_⟩
  obtain ⟨nonzero, line_eq⟩ := describes.resolveLine_eq bounded options named
    (.ofNat place.line.toNat)
  have written : ({ functionId := number, line := .ofNat place.line.toNat } :
      Pprof.Outgoing.Line) ≠ {} := by
    intro blank
    exact nonzero (congrArg Pprof.Outgoing.Line.functionId blank)
  have location_eq : (draft.received options).location? other_id.toPprof =
      some { id := other_id.toPprof
             lines := [{ functionId := number, line := .ofNat place.line.toNat }] } := by
    refine found_eq.trans (congrArg some ?_)
    rw [Pprof.Outgoing.Location.received, if_neg written]
    rfl
  simp only [Pprof.Profile.resolveLocation, location_eq, List.mapM_cons, List.mapM_nil, line_eq]
  rfl

/-! ## Samples -/

theorem resolveLabel_eq (describes : Describes tables samples numbering draft)
    (options : ExportOptions) {tag : Tag} {message : Pprof.Outgoing.Label}
    (labels : Labels tables numbering tag message) :
    ∃ pair, tables.tag? tag = some pair ∧
      (draft.received options).resolveLabel message.received = .ok (resolvedTag pair) := by
  obtain ⟨key, value, found, -, keyed, valued⟩ := labels
  refine ⟨(key, value), found, ?_⟩
  simp only [Pprof.Profile.resolveLabel, Pprof.Outgoing.Label.received,
    describes.resolveString_eq options keyed, describes.resolveString_eq options valued]
  rfl

theorem resolveSample_eq (bounded : tables.Bounded)
    (describes : Describes tables samples numbering draft) (options : ExportOptions) {own : Sample}
    {message : Pprof.Outgoing.Sample} (listed : own ∈ samples)
    (sampled : Samples tables numbering own message) :
    ∃ resolved, own.resolved? tables = some resolved ∧
      (draft.received options).resolveSample message.received = .ok resolved := by
  obtain ⟨places, located⟩ := exists_forall₂ fun id (member : id ∈ own.locations) =>
    describes.resolveLocation_eq bounded options (mem_referenced.mpr ⟨own, listed, member⟩)
  obtain ⟨pairs, tagged, labelled⟩ := exists_between
    (sampled.labels.imp fun _ _ labels => describes.resolveLabel_eq options labels)
  have places_eq : own.locations.mapM tables.place? = some places :=
    mapM_eq_pure (located.imp fun _ _ found => found.1)
  have tags_eq : own.tags.mapM tables.tag? = some pairs := mapM_eq_pure tagged
  have frames_eq : (own.locations.map LocationId.toPprof).mapM
      (draft.received options).resolveLocation = .ok (places.map fun place => [place.frame]) := by
    refine mapM_eq_pure ?_
    rw [List.forall₂_map_left_iff, List.forall₂_map_right_iff]
    exact located.imp fun _ _ found => found.2
  have labels_eq : (message.labels.map Pprof.Outgoing.Label.received).mapM
      (draft.received options).resolveLabel = .ok (pairs.map resolvedTag) := by
    refine mapM_eq_pure ?_
    rw [List.forall₂_map_left_iff, List.forall₂_map_right_iff]
    exact labelled
  refine ⟨resolvedSample places pairs own.size, by simp [Sample.resolved?, places_eq, tags_eq], ?_⟩
  simp only [Pprof.Profile.resolveSample, Pprof.Outgoing.Sample.received, sampled.locationIds_eq,
    sampled.values_eq, frames_eq, labels_eq]
  have flat : (places.map fun place => [place.frame]).flatten = places.map NamedPlace.frame := by
    rw [← List.flatMap_def, ← List.map_eq_flatMap]
  rw [resolvedSample, ← flat]
  rfl

/-- The profile resolves to what it is to say of the samples. -/
theorem resolve_eq (bounded : tables.Bounded)
    (describes : Describes tables samples numbering draft) (options : ExportOptions) :
    ∃ resolved, samples.mapM (Sample.resolved? tables) = some resolved ∧
      (draft.received options).resolve = .ok (Pprof.sorted resolved) := by
  have listed : List.Forall₂ (fun own message => own ∈ samples ∧
      Samples tables numbering own message) samples draft.samples :=
    (List.forall₂_and_left _ _).mpr ⟨fun _ member => member, describes.sampled⟩
  have each : List.Forall₂ (fun own message => ∃ means, own.resolved? tables = some means ∧
      (draft.received options).resolveSample message.received = .ok means) samples draft.samples :=
    listed.imp fun own message both => describes.resolveSample_eq bounded options both.1 both.2
  obtain ⟨resolved, own_eq, message_eq⟩ := exists_between each
  refine ⟨resolved, mapM_eq_pure own_eq, ?_⟩
  have samples_eq : (draft.received options).samples.mapM (draft.received options).resolveSample =
      .ok resolved := by
    refine mapM_eq_pure ?_
    rw [Draft.received, List.forall₂_map_left_iff]
    exact message_eq
  simp only [Pprof.Profile.resolve, samples_eq]
  rfl

end Drafting.Describes

end HeapSampler
