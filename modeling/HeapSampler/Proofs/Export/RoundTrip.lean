import Mathlib
import HeapSampler.Proofs.Export.Encode
import HeapSampler.Proofs.Export.Success

/-!
# Whatever resolves can be exported and read back

An export fails for its size or for the number of its strings.  Otherwise it decodes, packed or
not, to one profile, and that says of each sample what the tables say.
-/

namespace HeapSampler

open HeapSampler.Wire (Payload NumberedField always)

def Compression.pack : Compression → List UInt8 → List UInt8
  | gzip, message => Gzip.gzip message
  | none, message => message

/-! ## Limits -/

theorem BoundedBuffer.write?_eq {buffer : BoundedBuffer} (within : buffer.bytes.size ≤ buffer.limit)
    (chunk : Array UInt8) :
    buffer.write? chunk = if buffer.bytes.size + chunk.size ≤ buffer.limit then
      some { buffer with bytes := buffer.bytes ++ chunk } else none := by
  rw [write?, room, if_pos within]
  exact if_congr (by omega) rfl rfl

namespace CoalescingWriter

variable {writer after : CoalescingWriter} {chunk : Array UInt8}

theorem size_content (writer : CoalescingWriter) :
    writer.content.size = writer.buffer.bytes.size + writer.pending.size := Array.size_append

theorem exists_flushed (within : writer.buffer.bytes.size ≤ writer.buffer.limit)
    (room : writer.content.size ≤ writer.buffer.limit) :
    ∃ after, writer.flush? = some after ∧ after.buffer.limit = writer.buffer.limit ∧
      after.buffer.bytes.size ≤ after.buffer.limit := by
  rw [size_content] at room
  simp only [flush?, BoundedBuffer.write?_eq within, if_pos room, Option.map_some]
  exact ⟨_, rfl, rfl, by simpa [Array.size_append] using room⟩

/-- A chunk that fits is taken, whatever is collected. -/
theorem exists_written (within : writer.buffer.bytes.size ≤ writer.buffer.limit)
    (room : writer.content.size + chunk.size ≤ writer.buffer.limit) :
    ∃ after, writer.write? chunk = some after ∧ after.buffer.limit = writer.buffer.limit ∧
      after.buffer.bytes.size ≤ after.buffer.limit := by
  unfold write?
  split
  · exact ⟨_, rfl, rfl, within⟩
  · obtain ⟨flushed, flush_eq, limit_eq, within'⟩ := exists_flushed within (by omega)
    obtain ⟨bytes_eq, -⟩ := bytes_of_flush? flush_eq
    simp only [flush_eq]
    split
    · have room' : flushed.buffer.bytes.size + chunk.size ≤ flushed.buffer.limit := by
        rw [bytes_eq, limit_eq]
        exact room
      simp only [BoundedBuffer.write?_eq within', if_pos room', Option.map_some]
      exact ⟨_, rfl, limit_eq, by simpa [Array.size_append] using room'⟩
    · exact ⟨_, rfl, limit_eq, within'⟩

theorem exists_writtenAll {chunks : List (Array UInt8)}
    (within : writer.buffer.bytes.size ≤ writer.buffer.limit)
    (room : writer.content.size + (chunks.map Array.toList).flatten.length ≤ writer.buffer.limit) :
    ∃ after, chunks.foldlM write? writer = some after ∧
      after.buffer.limit = writer.buffer.limit ∧
      after.buffer.bytes.size ≤ after.buffer.limit := by
  induction chunks generalizing writer with
  | nil => exact ⟨writer, rfl, rfl, within⟩
  | cons chunk rest ih =>
      rw [List.map_cons, List.flatten_cons, List.length_append, Array.length_toList] at room
      obtain ⟨next, written, limit_eq, within'⟩ :=
        exists_written within (show writer.content.size + chunk.size ≤ _ by omega)
      have content_eq := congrArg Array.size (content_of_write? written)
      rw [Array.size_append] at content_eq
      obtain ⟨last, written', limit_eq', within''⟩ := ih within' (by omega)
      exact ⟨last, by rw [List.foldlM_cons, written]; exact written', limit_eq'.trans limit_eq,
        within''⟩

theorem within_of_flush? (within : writer.buffer.bytes.size ≤ writer.buffer.limit)
    (flushed : writer.flush? = some after) :
    after.buffer.limit = writer.buffer.limit ∧ after.buffer.bytes.size ≤ after.buffer.limit := by
  obtain ⟨buffer, written, rfl⟩ := Option.map_eq_some_iff.mp flushed
  rw [BoundedBuffer.write?_eq within, Option.ite_none_right_eq_some] at written
  obtain ⟨room, same⟩ := written
  cases same
  exact ⟨rfl, by simpa [Array.size_append] using room⟩

theorem within_of_write? (within : writer.buffer.bytes.size ≤ writer.buffer.limit)
    (written : writer.write? chunk = some after) :
    after.buffer.limit = writer.buffer.limit ∧ after.buffer.bytes.size ≤ after.buffer.limit := by
  unfold write? at written
  split at written
  · cases written
    exact ⟨rfl, within⟩
  · split at written
    · cases written
    · rename_i flushed flush_eq
      obtain ⟨limit_eq, within'⟩ := within_of_flush? within flush_eq
      split at written
      · obtain ⟨buffer, passed, rfl⟩ := Option.map_eq_some_iff.mp written
        rw [BoundedBuffer.write?_eq within', Option.ite_none_right_eq_some] at passed
        obtain ⟨room, same⟩ := passed
        cases same
        exact ⟨limit_eq, by simpa [Array.size_append] using room⟩
      · cases written
        exact ⟨limit_eq, within'⟩

theorem within_of_foldlM {chunks : List (Array UInt8)}
    (within : writer.buffer.bytes.size ≤ writer.buffer.limit)
    (written : chunks.foldlM write? writer = some after) :
    after.buffer.limit = writer.buffer.limit ∧ after.buffer.bytes.size ≤ after.buffer.limit := by
  induction chunks generalizing writer with
  | nil =>
      cases written
      exact ⟨rfl, within⟩
  | cons chunk rest ih =>
      rw [List.foldlM_cons] at written
      obtain ⟨next, first, later⟩ := Option.bind_eq_some_iff.mp written
      obtain ⟨limit_eq, within'⟩ := within_of_write? within first
      obtain ⟨limit_eq', within''⟩ := ih within' later
      exact ⟨limit_eq'.trans limit_eq, within''⟩

/-- Collecting changes neither what is written nor whether it fits. -/
theorem writeAll?_eq (limit : Nat) (chunks : List (Array UInt8)) :
    (writeAll? limit chunks).map Array.toList =
      if (chunks.map Array.toList).flatten.length ≤ limit then
        some (chunks.map Array.toList).flatten
      else none := by
  cases written : writeAll? limit chunks with
  | some bytes =>
      have content_eq := toList_of_writeAll? written
      obtain ⟨last, ended, rfl⟩ := Option.map_eq_some_iff.mp written
      obtain ⟨writer, collected, flushed⟩ := Option.bind_eq_some_iff.mp ended
      obtain ⟨limit_eq, within⟩ := within_of_foldlM (Nat.zero_le _) collected
      obtain ⟨limit_eq', within'⟩ := within_of_flush? within flushed
      have fits : (chunks.map Array.toList).flatten.length ≤ limit := by
        rw [← content_eq, Array.length_toList]
        exact within'.trans_eq (limit_eq'.trans limit_eq)
      rw [if_pos fits, Option.map_some, content_eq]
  | none =>
      refine (if_neg fun fits => ?_).symm
      obtain ⟨writer, collected, limit_eq, within⟩ := exists_writtenAll
        (show (⟨{ limit }, #[]⟩ : CoalescingWriter).buffer.bytes.size ≤ limit from Nat.zero_le _)
        (show 0 + _ ≤ limit by rwa [Nat.zero_add])
      have content_eq := congrArg List.length (content_of_foldlM collected)
      have room : writer.content.size ≤ writer.buffer.limit := by
        rw [limit_eq, ← Array.length_toList, content_eq]
        simpa [content] using fits
      obtain ⟨last, flushed, -⟩ := exists_flushed within room
      simp [writeAll?, collected, flushed] at written

end CoalescingWriter

/-! ## Exports -/

namespace Draft

variable {draft : Draft} {options : ExportOptions}

/-- A draft is packed unless that takes too many bytes. -/
theorem pack?_eq (draft : Draft) (options : ExportOptions) :
    (draft.pack? options).map Array.toList =
      if (options.compression.pack (draft.encode options)).length ≤ options.maxBytes then
        some (options.compression.pack (draft.encode options))
      else none := by
  unfold pack?
  cases options.compression with
  | none =>
      have content_eq : ((draft.fields options).map (·.toArray)).map Array.toList =
          draft.fields options := by
        rw [List.map_map]
        exact List.map_id _
      simp only [CoalescingWriter.writeAll?_eq, content_eq]
      rfl
  | gzip =>
      have within : ({ limit := options.maxBytes } : BoundedBuffer).bytes.size ≤ options.maxBytes :=
        Nat.zero_le _
      simp only [BoundedBuffer.write?_eq within, Compression.pack, List.size_toArray,
        List.length_nil, Nat.zero_add]
      split
      · rename_i fits
        simp [fits]
      · rename_i large
        simp [large]

/-- The parts of a message that can be told as a whole can be told. -/
theorem fits_of_length_lt (short : (draft.encode options).length < 2 ^ 64) : draft.Fits where
  samples message listed := by
    have inside : (always 2 message).encode ∈ draft.fields options := by
      simp only [fields, List.mem_append, List.mem_map]
      exact .inl (.inl (.inl (.inl (.inr ⟨message, listed, rfl⟩))))
    have part := (List.sublist_flatten_of_mem inside).length_le
    have payload := Pprof.length_payload_le 2 message
    exact Nat.lt_of_le_of_lt (payload.trans part) short
  strings text listed := by
    have inside : (always 6 text).encode ∈ draft.fields options := by
      simp only [fields, List.mem_append, List.mem_map]
      exact .inl (.inr ⟨text, Array.mem_toList_iff.mpr listed, rfl⟩)
    have part := (List.sublist_flatten_of_mem inside).length_le
    have payload := Pprof.length_payload_le 6 text
    rw [← Payload.Exact.size_eq_length] at payload
    exact Nat.lt_of_le_of_lt (payload.trans part) short

/-- However a draft is packed, it is read back as one profile. -/
theorem decode_pack (fits : draft.Fits) (types : draft.sampleTypes ≠ []) (options : ExportOptions)
    (compression : Compression) :
    Pprof.decode (compression.pack (draft.encode options)) = .ok (draft.received options) := by
  have packed := draft.pack?_eq { options with
    compression, maxBytes := (compression.pack (draft.encode options)).length }
  obtain ⟨bytes, packed_eq, same⟩ := Option.map_eq_some_iff.mp (packed.trans (if_pos le_rfl))
  have decoded := decode_of_pack? fits types packed_eq
  rw [same] at decoded
  exact decoded

end Draft

section Export

variable {tables : Tables} {samples : List Sample}

/-- A draft is exported unless that takes too many bytes. -/
theorem encodeProfile_eq {draft : Draft} (drafted : Draft.ofSamples tables samples = .ok draft)
    (options : ExportOptions) :
    encodeProfile tables samples options =
      if (options.compression.pack (draft.encode options)).length ≤ options.maxBytes then
        .ok (options.compression.pack (draft.encode options))
      else .error (.sizeLimitExceeded options.maxBytes) := by
  have packed := draft.pack?_eq options
  unfold encodeProfile
  simp only [drafted, bind, Except.bind]
  split
  · rename_i bytes packed_eq
    rw [packed_eq, Option.map_some] at packed
    split at packed
    · rename_i fits
      rw [if_pos fits, ← Option.some.inj packed]
      rfl
    · cases packed
  · rename_i packed_eq
    rw [packed_eq, Option.map_none] at packed
    split at packed
    · cases packed
    · rename_i large
      rw [if_neg large]
      rfl

/-- What is exported is a draft, and it is read back as it was drafted unless it is too long. -/
theorem exists_draft_of_encodeProfile {options : ExportOptions} {bytes : List UInt8}
    (encoded : encodeProfile tables samples options = .ok bytes) :
    ∃ draft numbering, Draft.ofSamples tables samples = .ok draft ∧
      Drafting.Describes tables samples numbering draft ∧
      bytes = options.compression.pack (draft.encode options) ∧
      ((draft.encode options).length < 2 ^ 64 →
        Pprof.decode bytes = .ok (draft.received options)) := by
  cases drafted : Draft.ofSamples tables samples with
  | error cause =>
      simp only [encodeProfile, drafted, bind, Except.bind] at encoded
      cases encoded
  | ok draft =>
      obtain ⟨numbering, describes⟩ := Draft.exists_describes drafted
      rw [encodeProfile_eq drafted] at encoded
      split at encoded
      · cases encoded
        exact ⟨draft, numbering, rfl, describes, rfl, fun short =>
          Draft.decode_pack (Draft.fits_of_length_lt short) describes.sampleTypes_ne _ _⟩
      · cases encoded

/-- What a profile says of a sample: its places in order, its tags sorted, and its size. -/
structure Sample.Means (tables : Tables) (own : Sample) (resolved : Pprof.ResolvedSample) :
    Prop where
  frames : ∃ places : List NamedPlace,
    own.locations.map (tables.functions.resolve? tables.strings) = places.map some ∧
      resolved.frames = places.map NamedPlace.frame
  tags : ∃ pairs : List (String × String), own.tags.map tables.tag? = pairs.map some ∧
    resolved.tags = Pprof.sorted (pairs.map resolvedTag)
  objects_eq : resolved.objects = 1
  sizeBytes_eq : resolved.sizeBytes.toInt = min (own.size.getD 0).toNat (2 ^ 63 - 1)

theorem toInt_sizeValue (size : Option UInt64) :
    (Drafting.sizeValue size).toInt = min (size.getD 0).toNat (2 ^ 63 - 1) := by
  have bounded : min (size.getD 0).toNat Drafting.maxSize < 2 ^ 63 := by
    simp only [Drafting.maxSize]
    omega
  rw [Drafting.sizeValue, Int64.toInt_ofNat_of_lt bounded]
  rfl

theorem Sample.means_of_resolved? {own : Sample} {resolved : Pprof.ResolvedSample}
    (found : own.resolved? tables = some resolved) : own.Means tables resolved := by
  obtain ⟨places, placed, found⟩ := Option.bind_eq_some_iff.mp found
  obtain ⟨pairs, tagged, found⟩ := Option.bind_eq_some_iff.mp found
  cases found
  exact ⟨⟨places, map_eq_of_mapM placed, rfl⟩, ⟨pairs, map_eq_of_mapM tagged, rfl⟩, rfl,
    toInt_sizeValue own.size⟩

def Drafting.neededTexts (tables : Tables) (samples : List Sample) : List String :=
  fixedTexts ++ samples.flatMap fun own =>
    ((own.tags.filterMap tables.tag?).flatMap fun pair => [pair.1, pair.2]) ++
      (own.locations.filterMap tables.place?).flatMap fun place =>
        [place.functionName, place.fileName]

theorem Drafting.mem_neededTexts {text : String} :
    text ∈ neededTexts tables samples ↔ Mentions tables samples text := by
  simp only [neededTexts, Mentions, List.mem_append, List.mem_flatMap, List.mem_filterMap,
    List.mem_cons, List.not_mem_nil, or_false]
  refine or_congr_right (exists_congr fun own => and_congr_right fun _ => or_congr ?_ ?_)
  · constructor
    · rintro ⟨pair, ⟨tag, listed, found⟩, named⟩
      exact ⟨tag, listed, pair, found, named⟩
    · rintro ⟨tag, listed, pair, found, named⟩
      exact ⟨pair, ⟨tag, listed, found⟩, named⟩
  · constructor
    · rintro ⟨place, ⟨id, listed, found⟩, named⟩
      exact ⟨id, listed, place, found, named⟩
    · rintro ⟨id, listed, place, found, named⟩
      exact ⟨place, ⟨id, listed, found⟩, named⟩

/-- If more strings are expected than there are offsets, a list of them all shows it. -/
theorem Drafting.Crowded.lt_card {Expected : String → Prop} {texts : List String}
    (crowded : Crowded Expected) (listed : ∀ text, Expected text → text ∈ texts) :
    2 ^ 32 < texts.toFinset.card := by
  obtain ⟨distinct, nodup, expected, many⟩ := crowded
  have inside : distinct.toFinset ⊆ texts.toFinset := by
    intro text member
    rw [List.mem_toFinset] at member ⊢
    exact listed text (expected text member)
  have card_le := Finset.card_le_card inside
  rw [List.toFinset_card_of_nodup nodup] at card_le
  exact many.trans_le card_le

theorem Drafting.not_crowded_of_card_le
    (few : (neededTexts tables samples).toFinset.card ≤ 2 ^ 32) :
    ¬Crowded (Mentions tables samples) :=
  fun crowded => Nat.not_lt.mpr few (crowded.lt_card fun _ => mem_neededTexts.mpr)

/--
Samples whose references all lead somewhere have a profile message.  It is exported, packed or not,
unless that takes too many bytes; packed or not it is decoded to one profile, and that resolves to
what the tables say of each sample.
-/
theorem exists_round_trip (bounded : tables.Bounded)
    (tagged : ∀ own ∈ samples, ∀ tag ∈ own.tags, (tables.tag? tag).isSome = true)
    (placed : ∀ own ∈ samples, ∀ id ∈ own.locations,
      (tables.functions.resolve? tables.strings id).isSome = true)
    (few : (Drafting.neededTexts tables samples).toFinset.card ≤ 2 ^ 32)
    (timeNanos : Int) (durationNanos : Nat) :
    ∃ message profile resolved,
      (∀ (compression : Compression) (maxBytes : Nat),
        encodeProfile tables samples { timeNanos, durationNanos, compression, maxBytes } =
          if (compression.pack message).length ≤ maxBytes then .ok (compression.pack message)
          else .error (.sizeLimitExceeded maxBytes)) ∧
      message.take 2 ≠ Gzip.magic ∧
      (message.length < 2 ^ 64 →
        ∀ compression : Compression, Pprof.decode (compression.pack message) = .ok profile) ∧
      List.Forall₂ (Sample.Means tables) samples resolved ∧
      profile.resolve = .ok (Pprof.sorted resolved) := by
  rcases Draft.ofSamples_cases (Tables.resolves_of_isSome tagged placed) with
    ⟨draft, drafted, -⟩ | ⟨-, crowded⟩
  · obtain ⟨numbering, describes⟩ := Draft.exists_describes drafted
    obtain ⟨resolved, own_resolved, resolves'⟩ :=
      describes.resolve_eq bounded { timeNanos, durationNanos }
    have each := map_eq_of_mapM own_resolved
    rw [← List.forall₂_eq_eq_eq, List.forall₂_map_left_iff, List.forall₂_map_right_iff] at each
    refine ⟨draft.encode { timeNanos, durationNanos }, _, resolved,
      fun compression maxBytes => encodeProfile_eq drafted _,
      Draft.take_encode_ne_magic describes.sampleTypes_ne _, fun short compression => ?_,
      each.imp fun _ _ => Sample.means_of_resolved?, resolves'⟩
    exact Draft.decode_pack (Draft.fits_of_length_lt short) describes.sampleTypes_ne _ compression
  · exact absurd crowded (Drafting.not_crowded_of_card_le few)

def workTables : Tables where
  strings := ⟨{
    slab.cells := #[some ⟨"env", 2⟩, some ⟨"test", 1⟩, some ⟨"work", 1⟩, some ⟨"work.rb", 1⟩]
    index := ⟨[("env", 1), ("test", 2), ("work", 3), ("work.rb", 4)], by decide⟩ }⟩
  functions := ⟨{
    slab.cells := #[some ⟨{ name := ⟨3⟩, file := ⟨4⟩, line := 7 }, 1⟩]
    index := ⟨[({ name := ⟨3⟩, file := ⟨4⟩, line := 7 }, 1)], by decide⟩ }⟩

/-- An object of the largest size, and one without places whose tag has no value. -/
def workSamples : List Sample :=
  [{ identity := some ⟨1⟩, backtrace := none, locations := [⟨1⟩], tags := [⟨⟨1⟩, ⟨2⟩⟩]
     size := some 18446744073709551615 },
    { identity := some ⟨2⟩, backtrace := none, tags := [⟨⟨1⟩, ⟨0⟩⟩] }]

theorem round_trip_of_workSamples :
    ∃ message profile resolved,
      encodeProfile workTables workSamples
        { timeNanos := 5, durationNanos := 3, compression := .none, maxBytes := 1000 } =
          .ok message ∧
      message.take 2 ≠ Gzip.magic ∧
      (∀ compression : Compression, Pprof.decode (compression.pack message) = .ok profile) ∧
      List.Forall₂ (Sample.Means workTables) workSamples resolved ∧
      profile.resolve = .ok (Pprof.sorted resolved) := by
  have bounded : workTables.Bounded := by
    intro id place found
    obtain ⟨interned, present, -⟩ := Option.map_eq_some_iff.mp found
    cases number : id.value with
    | zero => exact Nat.zero_le _
    | succ index =>
        rw [number] at present
        have inside : index < 1 := Slab.lt_size_of_get? present
        simp only [InternSet.maxWord]
        omega
  obtain ⟨message, profile, resolved, exported, unmarked, decoded, means, resolves⟩ :=
    exists_round_trip bounded (by decide) (by decide)
      ((List.toFinset_card_le _).trans (show (Drafting.neededTexts workTables workSamples).length ≤
        2 ^ 32 by decide +kernel)) 5 3
  have small : message.length ≤ 1000 := by
    have some_bytes : (encodeProfile workTables workSamples
        { timeNanos := 5, durationNanos := 3, compression := .none, maxBytes := 1000 }).isOk =
          true := by decide +kernel
    rw [exported] at some_bytes
    split at some_bytes
    · assumption
    · cases some_bytes
  refine ⟨message, profile, resolved, (exported _ _).trans (if_pos small), unmarked,
    decoded (Nat.lt_of_le_of_lt small (by decide)), means, resolves⟩

end Export

end HeapSampler
