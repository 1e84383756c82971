import Mathlib
import HeapSampler.Proofs.Export.Resolve
import HeapSampler.Proofs.Gzip.Member
import HeapSampler.Proofs.Pprof.Messages
import HeapSampler.Pprof.Decode

/-!
# Exports there and back

What is exported is decoded to the profile that was drafted, packed or not.
-/

namespace HeapSampler

open HeapSampler.Wire (Payload NumberedField always unlessBlank)
open Pprof (Absorb Takes)

/-! ## The profile message -/

structure Draft.Fits (draft : Draft) : Prop where
  samples : ∀ message ∈ draft.samples, (Payload.encode message).length < 2 ^ 64
  strings : ∀ text ∈ draft.strings, Wire.TextFits text

section Profile

open Pprof.Outgoing

/-- Messages of one kind are taken in as their reader is to see them. -/
theorem takes_messages {α β : Type} [DecidableEq α] [Payload α] [Payload.Exact α]
    (levels number : Nat) (got : α → β) (items : List α) (fill : List β → Pprof.Profile)
    (kind_eq : Payload.kind α = .delimited) (usable : Wire.IsFieldNumber number)
    (bounded : ∀ item ∈ items, (Payload.encode item).length < 2 ^ 64)
    (absorbed : ∀ item ∈ items, ∀ done, Absorb.absorb levels (fill done)
      (number, .delimited (Payload.encode item)) = some (fill (done ++ [got item]))) :
    Takes levels (items.flatMap (always number · |>.encode)) (fill []) (fill (items.map got)) :=
  Takes.flatMap fill (fun item member done => Pprof.takes_always_delimited kind_eq usable
    (bounded item member) (absorbed item member done)) []

/-- A written profile is read back as its reader is to see it. -/
theorem parse?_encode {draft : Draft} (fits : draft.Fits) (options : ExportOptions) :
    Pprof.parse? Pprof.Profile (draft.encode options) = some (draft.received options) := by
  have short {size bound : Nat} (small : size ≤ bound) (few : bound < 2 ^ 64 := by decide) :
      size < 2 ^ 64 := Nat.lt_of_le_of_lt small few
  have sampleTypes := takes_messages 100 1 ValueType.received draft.sampleTypes
    (fun sampleTypes => ({ sampleTypes } : Pprof.Profile)) rfl (by decide)
    (fun message _ => short (length_valueType_le message))
    (fun message _ _ => congrArg (Option.map _) (message?_valueType message))
  have samples := takes_messages 100 2 Sample.received draft.samples
    (fun samples => ({
      sampleTypes := draft.sampleTypes.map ValueType.received, samples } : Pprof.Profile))
    rfl (by decide) fits.samples
    (fun message listed _ => congrArg (Option.map _)
      (message?_sample message (fits.samples message listed)))
  have locations := takes_messages 100 4 Location.received draft.locations
    (fun locations => ({
      sampleTypes := draft.sampleTypes.map ValueType.received
      samples := draft.samples.map Sample.received, locations } : Pprof.Profile))
    rfl (by decide) (fun message _ => short (length_location_le message))
    (fun message _ _ => congrArg (Option.map _) (message?_location message))
  have functions := takes_messages 100 5 Function.received draft.functions
    (fun functions => ({
      sampleTypes := draft.sampleTypes.map ValueType.received
      samples := draft.samples.map Sample.received
      locations := draft.locations.map Location.received, functions } : Pprof.Profile))
    rfl (by decide) (fun message _ => short (length_function_le message))
    (fun message _ _ => congrArg (Option.map _) (message?_function message))
  have strings := takes_messages 100 6 id draft.strings.toList
    (fun strings => ({
      sampleTypes := draft.sampleTypes.map ValueType.received
      samples := draft.samples.map Sample.received
      locations := draft.locations.map Location.received
      functions := draft.functions.map Function.received, strings } : Pprof.Profile))
    rfl (by decide)
    (fun text listed => by
      rw [← Payload.Exact.size_eq_length]
      exact fits.strings text (Array.mem_toList_iff.mp listed))
    (fun text _ _ => congrArg (Option.map _) (Wire.fromUTF8?_toUTF8 text))
  have time : Takes 100 (unlessBlank 9 options.writtenTime).encode
      ({ draft.received options with timeNanos := 0, durationNanos := 0, defaultSampleType := 0 } :
        Pprof.Profile)
      { draft.received options with durationNanos := 0, defaultSampleType := 0 } :=
    Pprof.takes_unlessBlank (by decide) (fun blank => by simp only [Draft.received, blank]; rfl)
      (by simp [Absorb.absorb, Draft.received])
  have duration : Takes 100 (unlessBlank 10 options.writtenDuration).encode
      ({ draft.received options with durationNanos := 0, defaultSampleType := 0 } : Pprof.Profile)
      { draft.received options with defaultSampleType := 0 } :=
    Pprof.takes_unlessBlank (by decide) (fun blank => by simp only [Draft.received, blank]; rfl)
      (by simp [Absorb.absorb, Draft.received])
  have defaultSampleType : Takes 100 (unlessBlank 14 draft.defaultSampleType.toInt64).encode
      ({ draft.received options with defaultSampleType := 0 } : Pprof.Profile)
      (draft.received options) :=
    Pprof.takes_unlessBlank (by decide) (fun blank => by simp only [Draft.received, blank]; rfl)
      (by simp [Absorb.absorb, Draft.received])
  rw [List.map_id] at strings
  have all := ((((((sampleTypes.append samples).append locations).append functions).append
    strings).append time).append duration).append defaultSampleType
  refine Eq.trans ?_ (Pprof.message?_of_takes all)
  rw [Pprof.parse?, Pprof.maxLevels, Draft.encode, Draft.fields]
  simp only [List.flatten_append, List.flatMap_def, List.flatten_cons, List.flatten_nil,
    List.append_nil, List.append_assoc]

end Profile

/-! ## Packing -/

namespace CoalescingWriter

def content (writer : CoalescingWriter) : Array UInt8 := writer.buffer.bytes ++ writer.pending

theorem bytes_of_write? {buffer after : BoundedBuffer} {chunk : Array UInt8}
    (written : buffer.write? chunk = some after) : after.bytes = buffer.bytes ++ chunk := by
  unfold BoundedBuffer.write? at written
  split at written
  · cases written
    rfl
  · cases written

theorem bytes_of_flush? {writer after : CoalescingWriter} (flushed : writer.flush? = some after) :
    after.buffer.bytes = writer.content ∧ after.pending = #[] := by
  obtain ⟨buffer, written, rfl⟩ := Option.map_eq_some_iff.mp flushed
  exact ⟨bytes_of_write? written, rfl⟩

theorem content_of_write? {writer after : CoalescingWriter} {chunk : Array UInt8}
    (written : writer.write? chunk = some after) : after.content = writer.content ++ chunk := by
  unfold write? at written
  split at written
  · cases written
    exact Array.append_assoc.symm
  · split at written
    · cases written
    · rename_i flushed flush_eq
      obtain ⟨bytes_eq, pending_eq⟩ := bytes_of_flush? flush_eq
      split at written
      · obtain ⟨buffer, passed, rfl⟩ := Option.map_eq_some_iff.mp written
        rw [content, bytes_of_write? passed, bytes_eq, Array.append_empty]
      · cases written
        rw [content, bytes_eq]

theorem content_of_foldlM {chunks : List (Array UInt8)} {writer after : CoalescingWriter}
    (written : chunks.foldlM write? writer = some after) :
    after.content.toList = writer.content.toList ++ (chunks.map Array.toList).flatten := by
  induction chunks generalizing writer with
  | nil =>
      cases written
      simp
  | cons chunk rest ih =>
      rw [List.foldlM_cons] at written
      obtain ⟨next, first, later⟩ := Option.bind_eq_some_iff.mp written
      rw [ih later, content_of_write? first, Array.toList_append, List.map_cons,
        List.flatten_cons, List.append_assoc]

/-- What arrives is what was written, however it was collected. -/
theorem toList_of_writeAll? {limit : Nat} {chunks : List (Array UInt8)} {bytes : Array UInt8}
    (written : writeAll? limit chunks = some bytes) :
    bytes.toList = (chunks.map Array.toList).flatten := by
  obtain ⟨last, ended, rfl⟩ := Option.map_eq_some_iff.mp written
  obtain ⟨writer, collected, flushed⟩ := Option.bind_eq_some_iff.mp ended
  rw [(bytes_of_flush? flushed).1, content_of_foldlM collected]
  simp [content]

end CoalescingWriter

namespace Draft

variable {draft : Draft} {options : ExportOptions} {bytes : Array UInt8}

/-- A profile message is not taken for a gzip member. -/
theorem take_encode_ne_magic (types : draft.sampleTypes ≠ []) (options : ExportOptions) :
    (draft.encode options).take 2 ≠ Gzip.magic := by
  obtain ⟨first, rest, types_eq⟩ := List.exists_cons_of_ne_nil types
  have header : (always 1 first).encode =
      10 :: (Wire.Varint.encode (Payload.size first) ++ Payload.encode first) := by
    rw [NumberedField.encode_of_written rfl, NumberedField.header,
      show Wire.key (always 1 first).number (Payload.kind Pprof.Outgoing.ValueType) = 10 from rfl,
      Wire.Varint.encode_of_lt (by decide)]
    rfl
  intro same
  have begun := congrArg List.head? same
  simp [Draft.encode, Draft.fields, types_eq, header, Gzip.magic] at begun

theorem decode_of_pack? (fits : draft.Fits) (types : draft.sampleTypes ≠ [])
    (packed : draft.pack? options = some bytes) :
    Pprof.decode bytes.toList = .ok (draft.received options) := by
  have parsed : Pprof.parseProfile (draft.encode options) = .ok (draft.received options) := by
    rw [Pprof.parseProfile, parse?_encode fits]
  unfold pack? at packed
  split at packed
  · have written := CoalescingWriter.toList_of_writeAll? packed
    have same : bytes.toList = draft.encode options := by
      rw [written, List.map_map]
      simp [Function.comp_def, Draft.encode]
    rw [Pprof.decode, same, if_neg (take_encode_ne_magic types options), parsed]
  · obtain ⟨buffer, written, rfl⟩ := Option.map_eq_some_iff.mp packed
    have same : buffer.bytes.toList = Gzip.gzip (draft.encode options) := by
      rw [CoalescingWriter.bytes_of_write? written]
      simp
    have marked : (Gzip.gzip (draft.encode options)).take 2 = Gzip.magic := by
      rw [Gzip.gzip, Gzip.plainHeader, List.append_assoc, List.append_assoc]
      rfl
    rw [Pprof.decode, same, if_pos marked, Gzip.gunzip?_gzip]
    exact parsed

end Draft

/-! ## Exports -/

section Export

variable {tables : Tables} {samples : List Sample} {options : ExportOptions}

structure Sample.Fits (tables : Tables) (own : Sample) : Prop where
  tag : ∀ tag ∈ own.tags, ∀ {pair : String × String}, tables.tag? tag = some pair →
    Wire.TextFits pair.1 ∧ Wire.TextFits pair.2
  place : ∀ id ∈ own.locations, ∀ {place : NamedPlace}, tables.place? id = some place →
    Wire.TextFits place.functionName ∧ Wire.TextFits place.fileName
  locations_lt : own.locations.length < 2 ^ 58
  tags_lt : own.tags.length < 2 ^ 59

theorem textFits_of_mentions (fits : ∀ own ∈ samples, own.Fits tables) {text : String}
    (mentioned : Drafting.Mentions tables samples text) : Wire.TextFits text := by
  rcases mentioned with fixed | ⟨own, listed, tagged | placed⟩
  · have all : ∀ text ∈ Drafting.fixedTexts, Wire.TextFits text := by decide
    exact all text fixed
  · obtain ⟨tag, tag_listed, pair, stands, rfl | rfl⟩ := tagged
    · exact ((fits own listed).tag tag tag_listed stands).1
    · exact ((fits own listed).tag tag tag_listed stands).2
  · obtain ⟨id, id_listed, place, stands, rfl | rfl⟩ := placed
    · exact ((fits own listed).place id id_listed stands).1
    · exact ((fits own listed).place id id_listed stands).2

/-- A draft fits if its samples do. -/
theorem Drafting.Describes.fits {numbering : Numbering} {draft : Draft}
    (describes : Drafting.Describes tables samples numbering draft)
    (samples_fit : ∀ own ∈ samples, own.Fits tables) : draft.Fits where
  samples message listed := by
    obtain ⟨own, own_listed, drafted⟩ := exists_left describes.sampled listed
    have own_fits := samples_fit own own_listed
    refine Pprof.Outgoing.length_sample_lt ?_ ?_ ?_ fun label member => ?_
    · rw [drafted.locationIds_eq, List.length_map]
      exact own_fits.locations_lt
    · rw [drafted.values_eq]
      exact Nat.le_refl 2
    · rw [← drafted.labels.length_eq]
      exact own_fits.tags_lt
    · obtain ⟨tag, -, key, value, -, plain, -⟩ := exists_left drafted.labels member
      exact plain
  strings text listed :=
    textFits_of_mentions samples_fit (describes.mentioned text (by rwa [← describes.strings_eq]))

/-- An export decodes to a profile that resolves to what the samples and the tables say. -/
theorem decode_of_encodeProfile {bytes : List UInt8} (bounded : tables.Bounded)
    (fits : ∀ own ∈ samples, own.Fits tables)
    (encoded : encodeProfile tables samples options = .ok bytes) :
    ∃ profile resolved, Pprof.decode bytes = .ok profile ∧
      samples.mapM (Sample.resolved? tables) = some resolved ∧
      profile.resolve = .ok (Pprof.sorted resolved) := by
  unfold encodeProfile at encoded
  cases drafted : Draft.ofSamples tables samples with
  | error cause =>
      rw [drafted] at encoded
      cases encoded
  | ok draft =>
      rw [drafted] at encoded
      cases packed : draft.pack? options with
      | none =>
          simp only [bind, Except.bind, packed] at encoded
          cases encoded
      | some array =>
          simp only [bind, Except.bind, packed] at encoded
          cases encoded
          obtain ⟨numbering, describes⟩ := Draft.exists_describes drafted
          obtain ⟨resolved, resolved_eq, resolves⟩ := describes.resolve_eq bounded options
          exact ⟨draft.received options, resolved,
            Draft.decode_of_pack? (describes.fits fits) describes.sampleTypes_ne packed,
            resolved_eq, resolves⟩

end Export

end HeapSampler
