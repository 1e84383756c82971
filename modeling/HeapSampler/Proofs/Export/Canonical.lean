import Mathlib
import HeapSampler.Proofs.Export.SelfContained
import HeapSampler.Proofs.Pprof.Canonical

/-!
# Which profiles are written canonically

The ids in a drafted profile are not zero and each of its samples has two values, so all that can
keep it from its canonical bytes is a sample without places.
-/

namespace HeapSampler

open HeapSampler.Wire (Payload always)
open Pprof (Canonical.delimited Outgoing.encode_valueType Outgoing.encode_location_eq_iff
  Outgoing.encode_function_eq_iff Outgoing.encode_sample_eq_iff
  Outgoing.length_canonical_sample_le)

namespace Draft

variable {draft : Draft} {options : ExportOptions}

section Messages

variable {α : Type} [DecidableEq α] [Payload α] [Payload.Exact α]

/-- The messages of one kind, each behind its length. -/
theorem flatten_always (kind_eq : Payload.kind α = .delimited) (number : Nat) (items : List α) :
    (items.map (always number · |>.encode)).flatten =
      items.flatMap (Canonical.delimited number <| Payload.encode ·) := by
  rw [← List.flatMap_def]
  exact congrArg (List.flatMap · items)
    (funext fun item => Pprof.encode_always_delimited kind_eq number item)

theorem flatten_always_canonical (kind_eq : Payload.kind α = .delimited) (number : Nat)
    {items : List α} {canonical : α → List UInt8}
    (each : ∀ item ∈ items, Payload.encode item = canonical item) :
    (items.map (always number · |>.encode)).flatten =
      items.flatMap (Canonical.delimited number <| canonical ·) := by
  rw [flatten_always kind_eq]
  exact List.flatMap_congr fun item listed => congrArg _ (each item listed)

end Messages

/-- A profile has its canonical bytes if each of its messages has them. -/
theorem encode_eq_canonical_iff (locations : ∀ message ∈ draft.locations, message.id ≠ 0)
    (functions : ∀ message ∈ draft.functions, message.id ≠ 0) :
    draft.encode options = Pprof.Canonical.profile (draft.received options) ↔
      ∀ message ∈ draft.samples, message.locationIds ≠ [] ∧ message.values ≠ [] := by
  have types_eq := flatten_always_canonical rfl 1
    (fun message (_ : message ∈ draft.sampleTypes) => Outgoing.encode_valueType message)
  have samples_eq := flatten_always rfl 2 draft.samples
  have locations_eq := flatten_always_canonical rfl 4
    (fun message listed => (Outgoing.encode_location_eq_iff message).mpr (locations message listed))
  have functions_eq := flatten_always_canonical rfl 5
    (fun message listed => (Outgoing.encode_function_eq_iff message).mpr (functions message listed))
  have strings_eq := flatten_always_canonical rfl 6
    (fun text (_ : text ∈ draft.strings.toList) => (rfl : _ = text.toUTF8.toList))
  have samples_le : ∀ message ∈ draft.samples,
      (Canonical.delimited 2 (Pprof.Canonical.sample message.received)).length ≤
        (Canonical.delimited 2 (Payload.encode message)).length := fun message _ =>
    Pprof.length_delimited_mono 2 (Outgoing.length_canonical_sample_le message)
  have samples_iff (message : Pprof.Outgoing.Sample) :
      Canonical.delimited 2 (Payload.encode message) =
          Canonical.delimited 2 (Pprof.Canonical.sample message.received) ↔
        message.locationIds ≠ [] ∧ message.values ≠ [] :=
    (Pprof.delimited_eq_iff_of_le (Outgoing.length_canonical_sample_le message)).trans
      (Outgoing.encode_sample_eq_iff message)
  -- only the samples are left to compare: all else is the same on both sides
  rw [encode, fields, Pprof.Canonical.profile, received]
  simp only [List.flatten_append, List.flatten_cons, List.flatten_nil, types_eq, samples_eq,
    locations_eq, functions_eq, strings_eq, Pprof.encode_unlessBlank_integer, List.flatMap_map,
    List.append_nil, List.append_assoc]
  rw [List.append_right_inj, List.append_left_inj,
    flatMap_eq_flatMap_iff_of_le samples_le]
  exact forall₂_congr fun message _ => samples_iff message

end Draft

namespace Drafting.Describes

variable {tables : Tables} {samples : List Sample} {numbering : Numbering} {draft : Draft}

theorem location_id_ne_zero (describes : Describes tables samples numbering draft)
    (bounded : tables.Bounded) {message : Pprof.Outgoing.Location}
    (listed : message ∈ draft.locations) : message.id ≠ 0 := by
  obtain ⟨id, id_listed, place, number, -, rfl, -⟩ := exists_left describes.located listed
  exact describes.toPprof_ne_zero bounded id_listed

/-- Functions are numbered from 1. -/
theorem function_id_ne_zero (describes : Describes tables samples numbering draft)
    (bounded : tables.Bounded) {message : Pprof.Outgoing.Function}
    (listed : message ∈ draft.functions) : message.id ≠ 0 := by
  rintro zero
  have received : message.received ∈ (draft.received {}).functions := List.mem_map_of_mem listed
  have numbered := List.mem_map_of_mem (f := fun function : Pprof.Function => function.id.toNat)
    received
  rw [describes.function_ids bounded, List.mem_range'_1] at numbered
  have above := numbered.1
  rw [show message.received.id = message.id from rfl, zero] at above
  exact absurd above (by decide)

/-- A drafted profile has its canonical bytes unless there is a sample without places in it. -/
theorem encode_eq_canonical_iff (describes : Describes tables samples numbering draft)
    (bounded : tables.Bounded) (options : ExportOptions) :
    draft.encode options = Pprof.Canonical.profile (draft.received options) ↔
      ∀ own ∈ samples, own.locations ≠ [] := by
  have drafted_iff {own : Sample} {message : Pprof.Outgoing.Sample}
      (drafted : Samples tables numbering own message) :
      message.locationIds ≠ [] ∧ message.values ≠ [] ↔ own.locations ≠ [] := by
    rw [drafted.locationIds_eq, drafted.values_eq]
    simp
  rw [Draft.encode_eq_canonical_iff (fun _ => describes.location_id_ne_zero bounded)
    (fun _ => describes.function_id_ne_zero bounded)]
  constructor
  · intro written own listed
    obtain ⟨message, message_listed, drafted⟩ := exists_right describes.sampled listed
    exact (drafted_iff drafted).mp (written message message_listed)
  · intro placed message listed
    obtain ⟨own, own_listed, drafted⟩ := exists_left describes.sampled listed
    exact (drafted_iff drafted).mpr (placed own own_listed)

end Drafting.Describes

/--
The messages of numbers always have their canonical bytes, those with an id unless it is zero, and
a sample unless one of its two lists is empty.  What is exported unpacked has the canonical bytes of
the profile that it decodes to, unless there is a sample without places.
-/
theorem written_canonically :
    (∀ message : Pprof.Outgoing.ValueType,
      Payload.encode message = Pprof.Canonical.valueType message.received) ∧
    (∀ message : Pprof.Outgoing.Label,
      Payload.encode message = Pprof.Canonical.label message.received) ∧
    (∀ message : Pprof.Outgoing.Line,
      Payload.encode message = Pprof.Canonical.line message.received) ∧
    (∀ message : Pprof.Outgoing.Location,
      Payload.encode message = Pprof.Canonical.location message.received ↔ message.id ≠ 0) ∧
    (∀ message : Pprof.Outgoing.Function,
      Payload.encode message = Pprof.Canonical.function message.received ↔ message.id ≠ 0) ∧
    (∀ message : Pprof.Outgoing.Sample,
      Payload.encode message = Pprof.Canonical.sample message.received ↔
        message.locationIds ≠ [] ∧ message.values ≠ []) ∧
    ∀ (tables : Tables) (samples : List Sample), tables.Bounded →
      (tables.Resolves samples → (Drafting.neededTexts tables samples).toFinset.card ≤ 2 ^ 32 →
        ∀ (timeNanos : Int) (durationNanos : Nat), ∃ message, ∀ maxBytes : Nat,
          encodeProfile tables samples
              { timeNanos, durationNanos, compression := .none, maxBytes } =
            if message.length ≤ maxBytes then .ok message
            else .error (.sizeLimitExceeded maxBytes)) ∧
      ∀ {options : ExportOptions} {bytes : List UInt8}, options.compression = .none →
        encodeProfile tables samples options = .ok bytes → bytes.length < 2 ^ 64 →
        ∃ profile, Pprof.decode bytes = .ok profile ∧
          (bytes = Pprof.Canonical.profile profile ↔ ∀ own ∈ samples, own.locations ≠ []) := by
  refine ⟨Outgoing.encode_valueType, Pprof.Outgoing.encode_label, Pprof.Outgoing.encode_line,
    Outgoing.encode_location_eq_iff, Outgoing.encode_function_eq_iff,
    Outgoing.encode_sample_eq_iff, fun tables samples bounded => ⟨?_, ?_⟩⟩
  · intro resolves few timeNanos durationNanos
    rcases Draft.ofSamples_cases resolves with ⟨draft, drafted, -⟩ | ⟨-, crowded⟩
    · exact ⟨draft.encode { timeNanos, durationNanos }, fun maxBytes =>
        encodeProfile_eq drafted { timeNanos, durationNanos, compression := .none, maxBytes }⟩
    · exact absurd crowded (Drafting.not_crowded_of_card_le few)
  · intro options bytes unpacked encoded short
    obtain ⟨draft, numbering, -, describes, packed, decoded⟩ :=
      exists_draft_of_encodeProfile encoded
    rw [unpacked] at packed
    obtain rfl : bytes = draft.encode options := packed
    exact ⟨draft.received options, decoded short,
      describes.encode_eq_canonical_iff bounded options⟩

def placelessSamples : List Sample :=
  { identity := some ⟨3⟩, tags := [], backtrace := none, size := some 8 } :: sharedSamples

theorem written_canonically_of_sharedSamples :
    (∃ bytes profile,
      encodeProfile sharedTables sharedSamples { compression := .none, maxBytes := 1000 } =
        .ok bytes ∧
      Pprof.decode bytes = .ok profile ∧ bytes = Pprof.Canonical.profile profile) ∧
    ∃ bytes profile,
      encodeProfile sharedTables placelessSamples { compression := .none, maxBytes := 1000 } =
        .ok bytes ∧
      Pprof.decode bytes = .ok profile ∧ bytes ≠ Pprof.Canonical.profile profile := by
  have exported (samples : List Sample) (bounded : sharedTables.Bounded)
      (tagged : ∀ own ∈ samples, ∀ tag ∈ own.tags, (sharedTables.tag? tag).isSome = true)
      (placed : ∀ own ∈ samples, ∀ id ∈ own.locations, (sharedTables.place? id).isSome = true)
      (short : (Drafting.neededTexts sharedTables samples).length ≤ 2 ^ 32)
      (fits : (encodeProfile sharedTables samples
        { compression := .none, maxBytes := 1000 }).isOk = true) :
      ∃ bytes profile,
        encodeProfile sharedTables samples { compression := .none, maxBytes := 1000 } =
          .ok bytes ∧ Pprof.decode bytes = .ok profile ∧
        (bytes = Pprof.Canonical.profile profile ↔ ∀ own ∈ samples, own.locations ≠ []) := by
    obtain ⟨-, -, -, -, -, -, profiles⟩ := written_canonically
    obtain ⟨written, canonical⟩ := profiles sharedTables samples bounded
    obtain ⟨message, result⟩ := written (Tables.resolves_of_isSome tagged placed)
      ((List.toFinset_card_le _).trans short) 0 0
    have small : message.length ≤ 1000 := by
      rw [result] at fits
      split at fits
      · assumption
      · cases fits
    have encoded := (result 1000).trans (if_pos small)
    obtain ⟨profile, decoded, same⟩ :=
      canonical rfl encoded (Nat.lt_of_le_of_lt small (by decide))
    exact ⟨message, profile, encoded, decoded, same⟩
  have bounded : sharedTables.Bounded := (reachable_foldl .empty _).sound.bounded
  -- the sort of the places is the one step of an export that does not reduce
  have referenced_eq : Drafting.referenced sharedSamples = [⟨1⟩, ⟨2⟩, ⟨3⟩] := by cbv
  have referenced_eq' : Drafting.referenced placelessSamples = [⟨1⟩, ⟨2⟩, ⟨3⟩] := by cbv
  constructor
  · obtain ⟨bytes, profile, encoded, decoded, same⟩ := exported sharedSamples bounded
      (by decide +kernel) (by decide +kernel) (by decide +kernel) (by
        unfold encodeProfile Draft.ofSamples Drafting.draft
        rw [referenced_eq]
        decide +kernel)
    exact ⟨bytes, profile, encoded, decoded, same.mpr (by decide)⟩
  · obtain ⟨bytes, profile, encoded, decoded, same⟩ := exported placelessSamples bounded
      (by decide +kernel) (by decide +kernel) (by decide +kernel) (by
        unfold encodeProfile Draft.ofSamples Drafting.draft
        rw [referenced_eq']
        decide +kernel)
    exact ⟨bytes, profile, encoded, decoded,
      fun canonical => absurd (same.mp canonical) (by decide)⟩

end HeapSampler
