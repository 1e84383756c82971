import Mathlib
import HeapSampler.Proofs.Export.RoundTrip
import HeapSampler.Proofs.Intern.Reachable

/-!
# Profiles that stand on their own

All that an exported profile refers to is in it, once, and nothing is in it that no sample leads to.
That takes nothing more of the tables than that no two ids of a table stand for the same, so it does
not matter how they have been used.
-/

namespace HeapSampler

open Pprof (StringOffset)

/-! ## What a reader relies on -/

namespace Pprof.Profile

def namedOffsets (profile : Profile) : List Int64 :=
  (profile.samples.flatMap fun sample =>
    sample.labels.flatMap fun label => [label.key, label.str]) ++
    profile.functions.flatMap fun function =>
      [function.name, function.systemName, function.filename]

def offsets (profile : Profile) : List Int64 :=
  profile.namedOffsets ++
    ((profile.samples.flatMap fun sample => sample.labels.map (·.numUnit)) ++
      ((profile.sampleTypes.flatMap fun own => [own.type, own.unit]) ++
        [profile.defaultSampleType]))

/-- Nothing is missing, nothing is there twice, and nothing is there in vain. -/
structure SelfContained (profile : Profile) : Prop where
  blank_first : profile.strings[0]? = some ""
  strings_nodup : profile.strings.Nodup
  offsets_known : ∀ offset ∈ profile.offsets, ∃ text, profile.string? offset = some text
  /-- Beyond the empty string and the four of the sample types there are only named strings. -/
  strings_used : ∀ text ∈ profile.strings, text ∈ Drafting.fixedTexts ∨
    ∃ offset ∈ profile.namedOffsets, profile.string? offset = some text
  locations_ascend : (profile.locations.map (·.id)).Pairwise (· < ·)
  locations_ne_zero : ∀ location ∈ profile.locations, location.id ≠ 0
  location_used_iff : ∀ id, id ∈ profile.locations.map (·.id) ↔
    ∃ sample ∈ profile.samples, id ∈ sample.locationIds
  one_line : ∀ location ∈ profile.locations, location.lines.length = 1
  /-- No two locations have the same function and the same line. -/
  places_nodup : (profile.locations.map (·.lines)).Nodup
  function_ids : profile.functions.map (·.id.toNat) = List.range' 1 profile.functions.length
  function_used_iff : ∀ id, id ∈ profile.functions.map (·.id) ↔
    ∃ location ∈ profile.locations, ∃ line ∈ location.lines, line.functionId = id
  functions_nodup : (profile.functions.map fun function =>
    (profile.string? function.name, profile.string? function.filename)).Nodup

end Pprof.Profile

structure Sample.Written (tables : Tables) (profile : Pprof.Profile) (own : Sample)
    (message : Pprof.Sample) : Prop where
  locationIds_eq : message.locationIds = own.locations.map LocationId.toPprof
  values_eq : message.values = [1, Drafting.sizeValue own.size]
  labels : List.Forall₂
    (fun tag label => ∃ pair, tables.tag? tag = some pair ∧
      profile.string? label.key = some pair.1 ∧ profile.string? label.str = some pair.2)
    own.tags message.labels

theorem Tables.Sound.bounded {tables : Tables} (sound : tables.Sound) : tables.Bounded := by
  intro id place found
  obtain ⟨interned, present, -⟩ := Option.map_eq_some_iff.mp found
  exact sound.functions.id_le present

/-! ## Functions -/

/-- No function has two numbers, and each of them is known for one of the places. -/
structure Numbering.Tidy (Known : StringId × StringId → Prop) (numbering : Numbering) : Prop where
  functions_nodup : numbering.functions.toList.Nodup
  functions_known : ∀ key ∈ numbering.functions, Known key
  systemName_eq : ∀ message ∈ numbering.messages, message.systemName = message.name

namespace Drafting

variable {Known : StringId × StringId → Prop} {before after : Numbering} {tables : Tables}
  {samples : List Sample}

theorem AddsStrings.tidy {added : List String} (adds : AddsStrings added before after)
    (tidy : before.Tidy Known) : after.Tidy Known where
  functions_nodup := adds.functions_eq ▸ tidy.functions_nodup
  functions_known := adds.functions_eq ▸ tidy.functions_known
  systemName_eq := adds.messages_eq ▸ tidy.systemName_eq

theorem tidy_withFunction (tidy : before.Tidy Known) {place : Place} (name filename : StringOffset)
    (fresh : (place.name, place.file) ∉ before.functions) (known : Known (place.name, place.file)) :
    (withFunction before place name filename).Tidy Known where
  functions_nodup := by
    rw [withFunction, Array.toList_push, List.nodup_append]
    refine ⟨tidy.functions_nodup, List.nodup_singleton _, ?_⟩
    rintro key member _ last rfl
    exact fresh (List.mem_singleton.mp last ▸ Array.mem_toList_iff.mp member)
  functions_known key member := by
    rcases Array.mem_push.mp member with old | rfl
    · exact tidy.functions_known key old
    · exact known
  systemName_eq message member := by
    rcases Array.mem_push.mp member with old | rfl
    · exact tidy.systemName_eq message old
    · rfl

theorem tidy_of_functionNumber {texts : StringTable} {place : Place} {number : UInt64}
    (tidy : before.Tidy Known) (known : Known (place.name, place.file))
    (ran : (functionNumber texts place).run before = .ok (number, after)) : after.Tidy Known := by
  unfold functionNumber at ran
  obtain ⟨numbering, middle, got, ran⟩ := run_bind ran
  cases got
  cases found : before.functions.idxOf? (place.name, place.file) with
  | some index =>
      simp only [found] at ran
      cases ran
      exact tidy
  | none =>
      simp only [found] at ran
      obtain ⟨name, named, name_ran, ran⟩ := run_bind ran
      obtain ⟨filename, filed, file_ran, ran⟩ := run_bind ran
      obtain ⟨_, pushed, modified, ran⟩ := run_bind ran
      cases modified
      cases ran
      obtain ⟨functionName, -, name_adds, -⟩ := adds_of_offsetOfId name_ran
      obtain ⟨fileName, -, file_adds, -⟩ := adds_of_offsetOfId file_ran
      have adds := name_adds.trans file_adds
      rw [← adds.functions_eq]
      refine tidy_withFunction (adds.tidy tidy) name filename ?_ known
      rw [adds.functions_eq]
      exact not_mem_of_idxOf? found

theorem tidy_of_locations {ids : List LocationId} {locations : List Pprof.Outgoing.Location}
    (tidy : before.Tidy Known)
    (known : ∀ id ∈ ids, ∀ place, tables.functions.lookup? id = some place →
      Known (place.name, place.file))
    (ran : (ids.mapM (location tables)).run before = .ok (locations, after)) :
    after.Tidy Known := by
  induction ids generalizing before locations with
  | nil =>
      cases ran
      exact tidy
  | cons id rest ih =>
      obtain ⟨first, others⟩ := List.forall_mem_cons.mp known
      rw [List.mapM_cons] at ran
      obtain ⟨message, middle, first_ran, ran⟩ := run_bind ran
      obtain ⟨messages, last, rest_ran, ran⟩ := run_bind ran
      cases ran
      unfold location at first_ran
      split at first_ran
      · cases first_ran
      · rename_i place found
        obtain ⟨number, numbered, number_ran, first_ran⟩ := run_bind first_ran
        cases first_ran
        exact ih (tidy_of_functionNumber tidy (first place found) number_ran) others rest_ran

def IsReferenced (tables : Tables) (samples : List Sample) (key : StringId × StringId) : Prop :=
  ∃ id ∈ referenced samples, ∃ place, tables.functions.lookup? id = some place ∧
    (place.name, place.file) = key

theorem tidy_of_draft {whole : Draft}
    (ran : (draft tables samples).run {} = .ok (whole, after)) :
    after.Tidy (IsReferenced tables samples) := by
  obtain ⟨sampled, gathers, none_yet, -, -, locations_ran, -⟩ := sampled_of_draft ran
  have no_messages : sampled.messages = #[] := by
    rw [← Array.size_eq_zero_iff, gathers.sound.messages_size, none_yet]
    rfl
  have begun : sampled.Tidy (IsReferenced tables samples) := by
    refine ⟨by rw [none_yet]; exact .nil, fun key member => ?_, fun message member => ?_⟩
    · rw [none_yet] at member
      simp at member
    · rw [no_messages] at member
      simp at member
  exact tidy_of_locations begun (fun id listed place found => ⟨id, listed, place, found, rfl⟩)
    locations_ran

end Drafting

/-! ## The profile of a draft -/

namespace Drafting.Describes

variable {tables : Tables} {samples : List Sample} {numbering : Numbering} {draft : Draft}
  {Known : StringId × StringId → Prop}

theorem string?_of_found (describes : Describes tables samples numbering draft)
    (options : ExportOptions) {offset : StringOffset} {text : String}
    (found : numbering.string? offset = some text) :
    (draft.received options).string? offset.toInt64 = some text :=
  (describes.string?_eq options offset).trans found

/-- A function message names the strings of its key. -/
theorem exists_key (describes : Describes tables samples numbering draft) (bounded : tables.Bounded)
    {index : Nat} {message : Pprof.Outgoing.Function}
    (found : numbering.messages[index]? = some message) :
    ∃ name file functionName fileName, numbering.functions[index]? = some (name, file) ∧
      tables.strings.lookup? name = some functionName ∧
      tables.strings.lookup? file = some fileName ∧
      numbering.string? message.name = some functionName ∧
      numbering.string? message.filename = some fileName := by
  have inside := (Array.getElem?_eq_some_iff.mp found).1
  have key_inside : index < numbering.functions.size := describes.sound.messages_size ▸ inside
  have key_found := Array.getElem?_eq_getElem key_inside
  obtain ⟨functionName, fileName, named, filed, other, own, own_found, number_eq, name_found,
    file_found⟩ := describes.sound.names key_found
  have same := congrArg UInt64.toNat number_eq
  rw [describes.toNat_number bounded inside,
    describes.toNat_number bounded (Array.getElem?_eq_some_iff.mp own_found).1] at same
  cases Nat.succ.inj same
  cases found.symm.trans own_found
  exact ⟨_, _, functionName, fileName, key_found, named, filed, name_found, file_found⟩

/-- Functions are told apart by their names and their files. -/
theorem index_eq (describes : Describes tables samples numbering draft) (sound : tables.Sound)
    (tidy : numbering.Tidy Known) {index other : Nat} {message content : Pprof.Outgoing.Function}
    (found : numbering.messages[index]? = some message)
    (other_found : numbering.messages[other]? = some content)
    (name_eq : numbering.string? message.name = numbering.string? content.name)
    (filename_eq : numbering.string? message.filename = numbering.string? content.filename) :
    index = other := by
  obtain ⟨name, file, functionName, fileName, key, named, filed, name_found, file_found⟩ :=
    describes.exists_key sound.bounded found
  obtain ⟨name', file', functionName', fileName', key', named', filed', name_found', file_found'⟩ :=
    describes.exists_key sound.bounded other_found
  cases name_found.symm.trans (name_eq.trans name_found')
  cases file_found.symm.trans (filename_eq.trans file_found')
  cases sound.strings.id_eq named named'
  cases sound.strings.id_eq filed filed'
  have inside := (Array.getElem?_eq_some_iff.mp key).1
  rw [← Array.getElem?_toList] at key key'
  exact (List.getElem?_inj (by rwa [Array.length_toList]) tidy.functions_nodup).mp
    (key.trans key'.symm)

/-- Each place has one location, and that has one line. -/
theorem located_received (describes : Describes tables samples numbering draft)
    (bounded : tables.Bounded) (options : ExportOptions) :
    List.Forall₂
      (fun id location => ∃ place index function, tables.place? id = some place ∧
        numbering.messages[index]? = some function ∧
        numbering.string? function.name = some place.functionName ∧
        numbering.string? function.filename = some place.fileName ∧
        location = ({
          id := id.toPprof
          lines := [{
            functionId := UInt64.ofNat (index + 1)
            line := .ofNat place.line.toNat }] } : Pprof.Location))
      (referenced samples) (draft.received options).locations := by
  refine List.forall₂_map_right_iff.mpr (describes.located.imp fun id message located => ?_)
  obtain ⟨place, number, found, rfl, index, function, function_found, rfl, named, filed⟩ := located
  refine ⟨place, index, function, found, function_found, named, filed, ?_⟩
  have written : ({ functionId := UInt64.ofNat (index + 1), line := .ofNat place.line.toNat } :
      Pprof.Outgoing.Line) ≠ {} := by
    intro blank
    have zero := congrArg (fun line => line.functionId.toNat) blank
    simp only [describes.toNat_number bounded (Array.getElem?_eq_some_iff.mp function_found).1]
      at zero
    cases zero
  rw [Pprof.Outgoing.Location.received, if_neg written]
  rfl

/-- A place is found, so its id is not zero. -/
theorem toPprof_ne_zero (describes : Describes tables samples numbering draft)
    (bounded : tables.Bounded) {id : LocationId} (listed : id ∈ referenced samples) :
    id.toPprof ≠ 0 := by
  intro zero
  obtain ⟨message, -, place, number, found, -⟩ := exists_right describes.located listed
  obtain ⟨key, key_found, -⟩ := Option.bind_eq_some_iff.mp found
  have value_eq := describes.toNat_toPprof bounded listed
  rw [zero] at value_eq
  rw [FunctionTable.lookup?, ← value_eq] at key_found
  cases key_found

/-! ## Strings -/

theorem written_received (describes : Describes tables samples numbering draft)
    (options : ExportOptions) :
    List.Forall₂ (Sample.Written tables (draft.received options)) samples
      (draft.received options).samples := by
  refine List.forall₂_map_right_iff.mpr (describes.sampled.imp fun own message sampled => ?_)
  refine ⟨sampled.locationIds_eq, sampled.values_eq, ?_⟩
  refine List.forall₂_map_right_iff.mpr (sampled.labels.imp fun tag label labels => ?_)
  obtain ⟨key, value, found, -, keyed, valued⟩ := labels
  exact ⟨(key, value), found, describes.string?_of_found options keyed,
    describes.string?_of_found options valued⟩

/-- The offsets in labels and functions have been given out. -/
theorem named_known (describes : Describes tables samples numbering draft)
    (bounded : tables.Bounded) (tidy : numbering.Tidy Known) (options : ExportOptions) :
    ∀ offset ∈ (draft.received options).namedOffsets,
      ∃ text, (draft.received options).string? offset = some text := by
  intro offset listed
  rcases List.mem_append.mp listed with labelled | functional
  · obtain ⟨message, sampled, labelled⟩ := List.mem_flatMap.mp labelled
    obtain ⟨own, -, written⟩ := exists_left (describes.written_received options) sampled
    obtain ⟨label, label_listed, either⟩ := List.mem_flatMap.mp labelled
    obtain ⟨tag, -, pair, -, keyed, valued⟩ := exists_left written.labels label_listed
    simp only [List.mem_cons, List.not_mem_nil, or_false] at either
    rcases either with rfl | rfl
    · exact ⟨_, keyed⟩
    · exact ⟨_, valued⟩
  · obtain ⟨function, received, either⟩ := List.mem_flatMap.mp functional
    obtain ⟨message, listed, rfl⟩ := List.mem_map.mp received
    rw [describes.functions_eq, Array.mem_toList_iff] at listed
    obtain ⟨index, found⟩ := Array.mem_iff_getElem?.mp listed
    obtain ⟨-, -, functionName, fileName, -, -, -, named, filed⟩ :=
      describes.exists_key bounded found
    simp only [Pprof.Outgoing.Function.received, tidy.systemName_eq message listed, List.mem_cons,
      List.not_mem_nil, or_false] at either
    rcases either with rfl | rfl | rfl
    · exact ⟨_, describes.string?_of_found options named⟩
    · exact ⟨_, describes.string?_of_found options named⟩
    · exact ⟨_, describes.string?_of_found options filed⟩

/-- A string that was needed for a tag or a place is named by its label or its function. -/
theorem strings_used (describes : Describes tables samples numbering draft)
    (options : ExportOptions) {text : String} (mentioned : Mentions tables samples text) :
    text ∈ fixedTexts ∨ ∃ offset ∈ (draft.received options).namedOffsets,
      (draft.received options).string? offset = some text := by
  rcases mentioned with fixed | ⟨own, listed, tagged | placed⟩
  · exact .inl fixed
  · obtain ⟨tag, tag_listed, pair, found, either⟩ := tagged
    obtain ⟨message, sampled, written⟩ := exists_right (describes.written_received options) listed
    obtain ⟨label, label_listed, pair', found', keyed, valued⟩ :=
      exists_right written.labels tag_listed
    cases found.symm.trans found'
    have inside {offset : Int64} (either : offset ∈ [label.key, label.str]) :
        offset ∈ (draft.received options).namedOffsets :=
      List.mem_append_left _ (List.mem_flatMap.mpr
        ⟨message, sampled, List.mem_flatMap.mpr ⟨label, label_listed, either⟩⟩)
    rcases either with rfl | rfl
    · exact .inr ⟨label.key, inside (by simp), keyed⟩
    · exact .inr ⟨label.str, inside (by simp), valued⟩
  · obtain ⟨id, id_listed, place, found, either⟩ := placed
    obtain ⟨message, -, place', number, found', -, index, function, function_found, -, named,
      filed⟩ := exists_right describes.located (mem_referenced.mpr ⟨own, listed, id_listed⟩)
    cases found.symm.trans found'
    have received : function.received ∈ (draft.received options).functions := by
      refine List.mem_map_of_mem ?_
      rw [describes.functions_eq]
      exact Array.mem_toList_iff.mpr (Array.mem_of_getElem? function_found)
    have inside {offset : Int64} (either : offset ∈ [function.received.name,
        function.received.systemName, function.received.filename]) :
        offset ∈ (draft.received options).namedOffsets :=
      List.mem_append_right _ (List.mem_flatMap.mpr ⟨function.received, received, either⟩)
    rcases either with rfl | rfl
    · exact .inr ⟨_, inside List.mem_cons_self, describes.string?_of_found options named⟩
    · have last : function.received.filename ∈ [function.received.name,
          function.received.systemName, function.received.filename] := by simp
      exact .inr ⟨_, inside last, describes.string?_of_found options filed⟩

/-! ## Places -/

theorem location_ids_eq (describes : Describes tables samples numbering draft)
    (bounded : tables.Bounded) (options : ExportOptions) :
    (draft.received options).locations.map (·.id) =
      (referenced samples).map LocationId.toPprof := by
  have each := describes.located_received bounded options
  rw [← List.forall₂_eq_eq_eq, List.forall₂_map_left_iff, List.forall₂_map_right_iff]
  refine each.flip.imp fun location id found => ?_
  obtain ⟨place, index, function, -, -, -, -, rfl⟩ := found
  rfl

theorem locations_ascend (describes : Describes tables samples numbering draft)
    (bounded : tables.Bounded) (options : ExportOptions) :
    ((draft.received options).locations.map (·.id)).Pairwise (· < ·) := by
  rw [describes.location_ids_eq bounded, List.pairwise_map]
  refine (referenced_ascending samples).imp_of_mem fun {one other} listed other_listed less => ?_
  rw [UInt64.lt_iff_toNat_lt, describes.toNat_toPprof bounded listed,
    describes.toNat_toPprof bounded other_listed]
  exact less

theorem location_used_iff (describes : Describes tables samples numbering draft)
    (bounded : tables.Bounded) (options : ExportOptions) (id : UInt64) :
    id ∈ (draft.received options).locations.map (·.id) ↔
      ∃ sample ∈ (draft.received options).samples, id ∈ sample.locationIds := by
  rw [describes.location_ids_eq bounded, List.mem_map]
  have written := describes.written_received options
  constructor
  · rintro ⟨place, listed, rfl⟩
    obtain ⟨own, own_listed, placed⟩ := mem_referenced.mp listed
    obtain ⟨message, received, same⟩ := exists_right written own_listed
    exact ⟨message, received, same.locationIds_eq ▸ List.mem_map_of_mem placed⟩
  · rintro ⟨message, received, inside⟩
    obtain ⟨own, own_listed, same⟩ := exists_left written received
    rw [same.locationIds_eq] at inside
    obtain ⟨place, placed, rfl⟩ := List.mem_map.mp inside
    exact ⟨place, mem_referenced.mpr ⟨own, own_listed, placed⟩, rfl⟩

/-- Places in one function and on one line are one place. -/
theorem places_nodup (describes : Describes tables samples numbering draft)
    (sound : tables.Sound) (options : ExportOptions) :
    ((draft.received options).locations.map (·.lines)).Nodup := by
  have nodup : (referenced samples).Nodup :=
    (referenced_ascending samples).imp fun less same => Nat.ne_of_lt less (congrArg _ same)
  refine nodup_map_of_forall₂ (describes.located_received sound.bounded options) nodup ?_
  rintro one other location location' ⟨place, index, function, found, function_found, named, filed,
    rfl⟩ ⟨place', index', function', found', function_found', named', filed', rfl⟩ same
  simp only [List.cons.injEq, Pprof.Line.mk.injEq, and_true] at same
  obtain ⟨number_eq, line_eq⟩ := same
  have index_eq := congrArg UInt64.toNat number_eq
  rw [describes.toNat_number sound.bounded (Array.getElem?_eq_some_iff.mp function_found).1,
    describes.toNat_number sound.bounded (Array.getElem?_eq_some_iff.mp function_found').1]
    at index_eq
  cases Nat.succ.inj index_eq
  cases function_found.symm.trans function_found'
  have small {number : UInt32} : number.toNat < 2 ^ 63 :=
    Nat.lt_trans number.toNat_lt (by decide)
  have line_nat := congrArg Int64.toInt line_eq
  rw [Int64.toInt_ofNat_of_lt small, Int64.toInt_ofNat_of_lt small, Int.natCast_inj] at line_nat
  have place_eq : place = place' := by
    cases place
    cases place'
    cases named.symm.trans named'
    cases filed.symm.trans filed'
    cases UInt32.toNat_inj.mp line_nat
    rfl
  exact sound.named_id_eq found (place_eq ▸ found')

/-! ## Functions -/

theorem function_ids (describes : Describes tables samples numbering draft)
    (bounded : tables.Bounded) (options : ExportOptions) :
    (draft.received options).functions.map (·.id.toNat) =
      List.range' 1 (draft.received options).functions.length := by
  refine List.ext_getElem (by simp) fun index inside _ => ?_
  have messages_eq : (draft.received options).functions =
      numbering.messages.toList.map Pprof.Outgoing.Function.received := by
    rw [Draft.received, describes.functions_eq]
  simp only [messages_eq, List.length_map, Array.length_toList] at inside
  have id_eq := describes.sound.id_eq (Array.getElem?_eq_getElem inside)
  simp only [List.getElem_map, messages_eq, Array.getElem_toList, List.getElem_range',
    Pprof.Outgoing.Function.received, id_eq, describes.toNat_number bounded inside]
  omega

theorem mem_functions (describes : Describes tables samples numbering draft)
    (options : ExportOptions) {received : Pprof.Function} :
    received ∈ (draft.received options).functions ↔
      ∃ (index : Nat) (message : Pprof.Outgoing.Function),
        numbering.messages[index]? = some message ∧ message.received = received := by
  rw [Draft.received, describes.functions_eq, List.mem_map]
  constructor
  · rintro ⟨message, listed, rfl⟩
    obtain ⟨index, found⟩ := Array.mem_iff_getElem?.mp (Array.mem_toList_iff.mp listed)
    exact ⟨index, message, found, rfl⟩
  · rintro ⟨index, message, found, rfl⟩
    exact ⟨message, Array.mem_toList_iff.mpr (Array.mem_of_getElem? found), rfl⟩

theorem function_used_iff (describes : Describes tables samples numbering draft)
    (sound : tables.Sound) (tidy : numbering.Tidy (IsReferenced tables samples))
    (options : ExportOptions) (id : UInt64) :
    id ∈ (draft.received options).functions.map (·.id) ↔
      ∃ location ∈ (draft.received options).locations, ∃ line ∈ location.lines,
        line.functionId = id := by
  have located := describes.located_received sound.bounded options
  rw [List.mem_map]
  constructor
  · rintro ⟨received, listed, rfl⟩
    obtain ⟨index, message, found, rfl⟩ := (describes.mem_functions options).mp listed
    obtain ⟨name, file, functionName, fileName, key, named, filed, name_found, file_found⟩ :=
      describes.exists_key sound.bounded found
    obtain ⟨place_id, place_listed, place, place_found, key_eq⟩ :=
      tidy.functions_known _ (Array.mem_of_getElem? key)
    obtain ⟨location, drafted, named_place, other, function, resolved, function_found, name_found',
      file_found', rfl⟩ := exists_right located place_listed
    cases key_eq
    have named_eq : tables.place? place_id = some ⟨functionName, fileName, place.line⟩ := by
      simp [Tables.place?, FunctionTable.resolve?, place_found, named, filed]
    cases resolved.symm.trans named_eq
    have same := describes.index_eq sound tidy function_found found
      (name_found'.trans name_found.symm) (file_found'.trans file_found.symm)
    refine ⟨_, drafted, _, List.mem_singleton_self _, ?_⟩
    rw [same]
    exact (describes.sound.id_eq found).symm
  · rintro ⟨location, drafted, line, inside, rfl⟩
    obtain ⟨place_id, -, place, index, function, -, function_found, -, -, rfl⟩ :=
      exists_left located drafted
    cases List.mem_singleton.mp inside
    exact ⟨function.received,
      (describes.mem_functions options).mpr ⟨index, function, function_found, rfl⟩,
      describes.sound.id_eq function_found⟩

theorem functions_nodup (describes : Describes tables samples numbering draft)
    (sound : tables.Sound) (tidy : numbering.Tidy Known) (options : ExportOptions) :
    ((draft.received options).functions.map fun function =>
      ((draft.received options).string? function.name,
        (draft.received options).string? function.filename)).Nodup := by
  rw [Draft.received, describes.functions_eq, List.map_map, List.Nodup, List.pairwise_map,
    List.pairwise_iff_getElem]
  intro index other inside other_inside less same
  rw [Array.length_toList] at inside other_inside
  obtain ⟨name_eq, filename_eq⟩ := Prod.ext_iff.mp same
  refine Nat.ne_of_lt less (describes.index_eq sound tidy (Array.getElem?_eq_getElem inside)
    (Array.getElem?_eq_getElem other_inside) ?_ ?_)
  · rw [← describes.string?_eq options, ← describes.string?_eq options]
    exact name_eq
  · rw [← describes.string?_eq options, ← describes.string?_eq options]
    exact filename_eq

end Drafting.Describes

/-- Everything that a draft puts into its profile. -/
theorem Draft.self_contained {tables : Tables} {samples : List Sample} {draft : Draft}
    (sound : tables.Sound) (drafted : Draft.ofSamples tables samples = .ok draft)
    (options : ExportOptions) : (draft.received options).SelfContained := by
  obtain ⟨numbering, ran⟩ := Draft.exists_run drafted
  have describes := Drafting.describes_of_draft ran
  have tidy := Drafting.tidy_of_draft ran
  have surveys := ((Drafting.examines_draft (fun _ _ => trivial) fun _ _ _ _ => trivial).run_cases
    (Drafting.surveys_empty tables fun _ => True) ran).1
  obtain ⟨objects, count, size, bytes, types_eq, default_eq, blank_found, objects_found,
    count_found, size_found, bytes_found⟩ := Drafting.exists_fixed_offsets ran
  refine
    { blank_first := ?_
      strings_nodup := ?_
      offsets_known := fun offset listed => ?_
      strings_used := fun text listed => describes.strings_used options
        (describes.mentioned text (describes.strings_eq ▸ Array.mem_toList_iff.mp listed))
      locations_ascend := describes.locations_ascend sound.bounded options
      locations_ne_zero := fun location listed => ?_
      location_used_iff := describes.location_used_iff sound.bounded options
      one_line := fun location listed => ?_
      places_nodup := describes.places_nodup sound options
      function_ids := describes.function_ids sound.bounded options
      function_used_iff := describes.function_used_iff sound tidy options
      functions_nodup := describes.functions_nodup sound tidy options }
  · rw [Draft.received, describes.strings_eq, Array.getElem?_toList]
    exact blank_found
  · rw [Draft.received, describes.strings_eq]
    exact surveys.nodup
  · simp only [Pprof.Profile.offsets, List.mem_append, List.mem_singleton] at listed
    rcases listed with named | labelled | typed | rfl
    · exact describes.named_known sound.bounded tidy options offset named
    · obtain ⟨message, received, inside⟩ := List.mem_flatMap.mp labelled
      obtain ⟨own, drafted, rfl⟩ := List.mem_map.mp received
      obtain ⟨label, label_received, rfl⟩ := List.mem_map.mp inside
      obtain ⟨own_label, label_drafted, rfl⟩ := List.mem_map.mp label_received
      obtain ⟨sample, -, sampled⟩ := exists_left describes.sampled drafted
      obtain ⟨tag, -, key, value, -, plain, -⟩ := exists_left sampled.labels label_drafted
      rw [plain]
      exact ⟨"", describes.string?_of_found options blank_found⟩
    · rw [Draft.received, types_eq] at typed
      simp only [List.map_cons, List.map_nil, List.flatMap_cons, List.flatMap_nil, List.cons_append,
        List.nil_append, List.mem_cons, List.not_mem_nil, or_false] at typed
      rcases typed with rfl | rfl | rfl | rfl
      · exact ⟨_, describes.string?_of_found options objects_found⟩
      · exact ⟨_, describes.string?_of_found options count_found⟩
      · exact ⟨_, describes.string?_of_found options size_found⟩
      · exact ⟨_, describes.string?_of_found options bytes_found⟩
    · rw [show (draft.received options).defaultSampleType =
        draft.defaultSampleType.toInt64 from rfl,
        default_eq]
      exact ⟨_, describes.string?_of_found options size_found⟩
  · obtain ⟨id, id_listed, place, index, function, -, -, -, -, rfl⟩ :=
      exists_left (describes.located_received sound.bounded options) listed
    exact describes.toPprof_ne_zero sound.bounded id_listed
  · obtain ⟨id, -, place, index, function, -, -, -, -, rfl⟩ :=
      exists_left (describes.located_received sound.bounded options) listed
    rfl

/--
What is exported from any tables, packed or not, is read back as a profile that stands on its own,
with a message for each sample in the order of the samples.
-/
theorem self_contained_of_encodeProfile {tables : Tables} {samples : List Sample}
    {options : ExportOptions} {bytes : List UInt8} (reached : tables.Reachable)
    (encoded : encodeProfile tables samples options = .ok bytes) :
    ∃ message, bytes = options.compression.pack message ∧
      (message.length < 2 ^ 64 →
        ∃ profile, Pprof.decode bytes = .ok profile ∧ profile.SelfContained ∧
          List.Forall₂ (Sample.Written tables profile) samples profile.samples) := by
  obtain ⟨draft, numbering, drafted, describes, packed, decoded⟩ :=
    exists_draft_of_encodeProfile encoded
  refine ⟨draft.encode options, packed, fun short => ⟨draft.received options, decoded short, ?_⟩⟩
  exact ⟨Draft.self_contained reached.sound drafted options, describes.written_received options⟩

/--
The first string is given back while a tag still has its id, which then stands for another one; and
two of the three places are in one function.
-/
def sharedTables : Tables :=
  [.intern "env", .intern "test", .release ⟨1⟩, .internPlace ⟨"work", "env", 7⟩,
    .internPlace ⟨"work", "env", 8⟩, .internPlace ⟨"test", "env", 8⟩].foldl Tables.perform {}

theorem reachable_foldl {tables : Tables} (reached : tables.Reachable) (calls : List Tables.Call) :
    (calls.foldl Tables.perform tables).Reachable := by
  induction calls generalizing tables with
  | nil => exact reached
  | cons call rest ih => exact ih (reached.called call)

def sharedSamples : List Sample :=
  [{ identity := some ⟨1⟩, backtrace := none, locations := [⟨3⟩, ⟨1⟩], tags := [⟨⟨1⟩, ⟨2⟩⟩] },
    { identity := some ⟨2⟩, backtrace := none, locations := [⟨1⟩, ⟨2⟩], tags := [⟨⟨2⟩, ⟨0⟩⟩]
      size := some 64 }]

theorem self_contained_of_sharedSamples :
    ∃ profile, (∃ bytes, encodeProfile sharedTables sharedSamples
        { timeNanos := 5, durationNanos := 3, compression := .none, maxBytes := 1000 } = .ok bytes ∧
          Pprof.decode bytes = .ok profile) ∧
      profile.SelfContained ∧
      List.Forall₂ (Sample.Written sharedTables profile) sharedSamples profile.samples := by
  have small : (encodeProfile sharedTables sharedSamples
      { timeNanos := 5, durationNanos := 3, compression := .none, maxBytes := 1000 }).toOption.any
        (fun bytes => decide (bytes.length < 2 ^ 64)) = true := by
    -- The sort of the places is the one step that does not reduce.
    have referenced_eq : Drafting.referenced sharedSamples = [⟨1⟩, ⟨2⟩, ⟨3⟩] := by cbv
    unfold encodeProfile Draft.ofSamples Drafting.draft
    rw [referenced_eq]
    decide +kernel
  obtain ⟨bytes, encoded, short⟩ := (Option.any_eq_true _ _).mp small
  have encoded : encodeProfile sharedTables sharedSamples
      { timeNanos := 5, durationNanos := 3, compression := .none, maxBytes := 1000 } =
        .ok bytes := by
    cases result : encodeProfile sharedTables sharedSamples
        { timeNanos := 5, durationNanos := 3, compression := .none, maxBytes := 1000 } with
    | error cause => simp [result, Except.toOption] at encoded
    | ok own =>
        rw [result] at encoded
        cases encoded
        rfl
  obtain ⟨message, same, conveys⟩ :=
    self_contained_of_encodeProfile (reachable_foldl .empty _) encoded
  obtain rfl : bytes = message := same
  obtain ⟨profile, decoded, own, written⟩ := conveys (of_decide_eq_true short)
  exact ⟨profile, ⟨bytes, encoded, decoded⟩, own, written⟩

end HeapSampler
