import Mathlib
import HeapSampler.Proofs.Export.RoundTrip
import HeapSampler.Proofs.Pprof.Sorted

/-!
# What is exported, whatever its ids

An export depends on the tags, the places and the sizes of its samples.  The ids that they have in
the tables and the order of the samples decide at most whether it keeps to its size limit.
-/

namespace HeapSampler

structure Content where
  tags : List (Option (String × String))
  places : List (Option NamedPlace)
  size : Option UInt64
  deriving DecidableEq, Repr

def Sample.content (tables : Tables) (own : Sample) : Content where
  tags := own.tags.map tables.tag?
  places := own.locations.map tables.place?
  size := own.size

namespace Content

/-- What a profile is to say of a sample with this content, if nothing of it is missing. -/
def resolved? (content : Content) : Option Pprof.ResolvedSample := do
  let places ← content.places.mapM id
  let tags ← content.tags.mapM id
  return resolvedSample places tags content.size

def Mentions (content : Content) (text : String) : Prop :=
  (∃ pair, some pair ∈ content.tags ∧ (text = pair.1 ∨ text = pair.2)) ∨
    ∃ place, some place ∈ content.places ∧ (text = place.functionName ∨ text = place.fileName)

def Needs (contents : List Content) (text : String) : Prop :=
  text ∈ Drafting.fixedTexts ∨ ∃ content ∈ contents, content.Mentions text

end Content

/--
These bytes are a message, packed or not, that can be read and resolves to these samples, if its
length can be told.
-/
def Conveys (bytes : List UInt8) (resolved : List Pprof.ResolvedSample) : Prop :=
  ∃ (compression : Compression) (message : List UInt8), bytes = compression.pack message ∧
    (message.length < 2 ^ 64 →
      ∃ profile, Pprof.decode bytes = .ok profile ∧ profile.resolve = .ok resolved)

inductive Encodes (contents : List Content) (options : ExportOptions) :
    Except EncodeError (List UInt8) → Prop where
  | packed {bytes : List UInt8} {resolved : List Pprof.ResolvedSample}
      (room : ¬Drafting.Crowded (Content.Needs contents))
      (resolved_eq : contents.mapM Content.resolved? = some resolved)
      (conveys : Conveys bytes (Pprof.sorted resolved)) :
      Encodes contents options (if bytes.length ≤ options.maxBytes then .ok bytes
        else .error (.sizeLimitExceeded options.maxBytes))
  | crowded (crowded : Drafting.Crowded (Content.Needs contents)) :
      Encodes contents options (.error .storageFull)

variable {tables : Tables} {samples : List Sample}

theorem Sample.resolved?_content (tables : Tables) (own : Sample) :
    (own.content tables).resolved? = own.resolved? tables := by
  simp only [Content.resolved?, Sample.content, Sample.resolved?, List.mapM_map, Function.comp_def,
    id]

theorem mentions_iff {text : String} : Drafting.Mentions tables samples text ↔
    Content.Needs (samples.map (·.content tables)) text := by
  refine or_congr_right ?_
  simp only [List.mem_map, exists_exists_and_eq_and, Content.Mentions, Sample.content]
  refine exists_congr fun own => and_congr_right fun _ => or_congr ?_ ?_
  · constructor
    · rintro ⟨tag, listed, pair, found, named⟩
      exact ⟨pair, ⟨tag, listed, found⟩, named⟩
    · rintro ⟨pair, ⟨tag, listed, found⟩, named⟩
      exact ⟨tag, listed, pair, found, named⟩
  · constructor
    · rintro ⟨id, listed, place, found, named⟩
      exact ⟨place, ⟨id, listed, found⟩, named⟩
    · rintro ⟨place, ⟨id, listed, found⟩, named⟩
      exact ⟨id, listed, place, found, named⟩

/-- What comes of an export depends on the contents alone, but for the size limit. -/
theorem encodes_content (bounded : tables.Bounded) (resolves : tables.Resolves samples)
    (options : ExportOptions) :
    Encodes (samples.map (·.content tables)) options (encodeProfile tables samples options) := by
  rcases Draft.ofSamples_cases resolves with ⟨draft, drafted, room⟩ | ⟨failed, crowded⟩
  · obtain ⟨numbering, describes⟩ := Draft.exists_describes drafted
    have room' : ¬Drafting.Crowded (Content.Needs (samples.map (·.content tables))) :=
      fun crowded => room (crowded.mono mentions_iff.mpr)
    obtain ⟨resolved, own_resolved, resolves'⟩ := describes.resolve_eq bounded options
    have content_resolved :
        (samples.map (·.content tables)).mapM Content.resolved? = some resolved := by
      rw [List.mapM_map]
      simpa only [Function.comp_def, Sample.resolved?_content] using own_resolved
    rw [encodeProfile_eq drafted]
    refine .packed room' content_resolved
      ⟨options.compression, draft.encode options, rfl, fun short => ?_⟩
    exact ⟨_, Draft.decode_pack (Draft.fits_of_length_lt short) describes.sampleTypes_ne _ _,
      resolves'⟩
  · have failed' : encodeProfile tables samples options = .error .storageFull := by
      simp only [encodeProfile, failed, bind, Except.bind]
    rw [failed']
    exact .crowded (crowded.mono mentions_iff.mp)

theorem Encodes.cause_eq {contents : List Content} {options : ExportOptions}
    {result : Except EncodeError (List UInt8)} {cause : EncodeError}
    (encodes : Encodes contents options result) (failed : result = .error cause) :
    cause = .sizeLimitExceeded options.maxBytes ∨ cause = .storageFull := by
  cases encodes with
  | packed room resolved_eq conveys =>
      split at failed
      · cases failed
      · cases failed
        exact .inl rfl
  | crowded crowded =>
      cases failed
      exact .inr rfl

/-! ## Two exports of one content -/

theorem Content.needs_perm {contents contents' : List Content} (same : contents.Perm contents')
    {text : String} : Content.Needs contents text ↔ Content.Needs contents' text := by
  simp only [Content.Needs, same.mem_iff]

theorem Content.crowded_perm {contents contents' : List Content} (same : contents.Perm contents') :
    Drafting.Crowded (Content.Needs contents) ↔ Drafting.Crowded (Content.Needs contents') :=
  ⟨fun crowded => crowded.mono (Content.needs_perm same).mp,
    fun crowded => crowded.mono (Content.needs_perm same).mpr⟩

/-- Whatever the order of the contents, the same samples are conveyed. -/
theorem Content.sorted_perm {contents contents' : List Content}
    {resolved resolved' : List Pprof.ResolvedSample} (same : contents.Perm contents')
    (resolved_eq : contents.mapM Content.resolved? = some resolved)
    (resolved_eq' : contents'.mapM Content.resolved? = some resolved') :
    Pprof.sorted resolved = Pprof.sorted resolved' := by
  obtain ⟨own, own_eq, perm⟩ := mapM_perm same resolved_eq
  cases resolved_eq'.symm.trans own_eq
  exact Pprof.sorted_eq_of_perm perm

end HeapSampler
