import Mathlib
import HeapSampler.Proofs.Export.RoundTrip

/-!
# References that lead nowhere

An export fails at the first reference that is missing, and only if one is.
-/

namespace HeapSampler

def Reference.text? (tables : Tables) : Reference → Option String
  | text id => tables.strings.lookup? id
  | place _ => none

/-- The strings that a profile of these samples can need, with those that are in every profile. -/
def Tables.reachableTexts (tables : Tables) (samples : List Sample) : List String :=
  Drafting.fixedTexts ++ (tables.references samples).filterMap (Reference.text? tables)

section Export

variable {tables : Tables} {samples : List Sample}

theorem Tables.foresees_reachableTexts (tables : Tables) (samples : List Sample) :
    Drafting.Foresees tables (· ∈ tables.reachableTexts samples) (tables.references samples) :=
  fun _ listed _ found => List.mem_append_right _ (List.mem_filterMap.mpr ⟨_, listed, found⟩)

/-- Samples that need no more strings than there are offsets are drafted, or their first missing
reference is reported. -/
theorem Draft.ofSamples_cases_of_card_le
    (few : (tables.reachableTexts samples).toFinset.card ≤ 2 ^ 32) :
    (∃ draft, Draft.ofSamples tables samples = .ok draft ∧
        tables.firstMissing? (tables.references samples) = none) ∨
      ∃ missing, Draft.ofSamples tables samples = .error missing.cause ∧
        tables.firstMissing? (tables.references samples) = some missing := by
  rw [Draft.ofSamples, StateT.run'_eq]
  cases Drafting.examines_draft (fun _ => List.mem_append_left _)
    (tables.foresees_reachableTexts samples) {} (Drafting.surveys_empty _ _) with
  | drafts draft after ran surveys extends_ live => exact .inl ⟨draft, by rw [ran]; rfl, live⟩
  | misses missing failed found => exact .inr ⟨missing, by rw [failed]; rfl, found⟩
  | full failed crowded =>
      exact absurd few (Nat.not_le.mpr (Drafting.Crowded.lt_card crowded fun _ => id))

/--
If the limit is not too low, samples are exported exactly if everything that they refer to is there;
otherwise the first reference that is missing is reported.  The tags come first, in the order of the
samples, each key before its value; then the places in the order of their ids, each place before the
name of its function and the name before the file.
-/
theorem first_missing_of_encodeProfile
    (few : (tables.reachableTexts samples).toFinset.card ≤ 2 ^ 32) (timeNanos : Int)
    (durationNanos : Nat) (compression : Compression) :
    ∃ enough, ∀ maxBytes, enough ≤ maxBytes →
      ((∃ bytes, encodeProfile tables samples
          { timeNanos, durationNanos, compression, maxBytes } = .ok bytes) ↔
        ∀ own ∈ samples, own.IsLive tables) ∧
      ((¬∀ own ∈ samples, own.IsLive tables) → ∃ missing,
        tables.firstMissing? (tables.references samples) = some missing ∧
        encodeProfile tables samples { timeNanos, durationNanos, compression, maxBytes } =
          .error missing.cause) := by
  rcases Draft.ofSamples_cases_of_card_le few with ⟨draft, drafted, live⟩ | ⟨missing, failed, found⟩
  · have all_live := Tables.firstMissing?_references_eq_none_iff.mp live
    refine ⟨(compression.pack (draft.encode { timeNanos, durationNanos })).length,
      fun maxBytes enough => ⟨iff_of_true ?_ all_live, fun dead => absurd all_live dead⟩⟩
    exact ⟨_, (encodeProfile_eq drafted _).trans (if_pos enough)⟩
  · have failed_eq : ∀ options, encodeProfile tables samples options = .error missing.cause := by
      intro options
      simp only [encodeProfile, failed, bind, Except.bind]
    have dead : ¬∀ own ∈ samples, own.IsLive tables := by
      rw [← Tables.firstMissing?_references_eq_none_iff, found]
      exact Option.some_ne_none missing
    refine ⟨0, fun maxBytes _ => ⟨iff_of_false ?_ dead, fun _ => ⟨missing, found, failed_eq _⟩⟩⟩
    rintro ⟨bytes, exported⟩
    cases exported.symm.trans (failed_eq _)

/-- Two places in one function, and one in a file that is not there. -/
def strayTables : Tables where
  strings := ⟨{
    slab.cells := #[some ⟨"env", 2⟩, some ⟨"test", 1⟩, some ⟨"work", 2⟩, some ⟨"work.rb", 2⟩]
    index := ⟨[("work.rb", 4), ("work", 3), ("test", 2), ("env", 1)], by decide⟩ }⟩
  functions := ⟨{
    slab.cells := #[some ⟨{ name := ⟨3⟩, file := ⟨4⟩, line := 7 }, 1⟩,
      some ⟨{ name := ⟨3⟩, file := ⟨4⟩, line := 9 }, 1⟩,
      some ⟨{ name := ⟨3⟩, file := ⟨5⟩, line := 1 }, 1⟩]
    index := ⟨[({ name := ⟨3⟩, file := ⟨4⟩, line := 7 }, 1),
      ({ name := ⟨3⟩, file := ⟨4⟩, line := 9 }, 2),
      ({ name := ⟨3⟩, file := ⟨5⟩, line := 1 }, 3)], by decide⟩ }⟩

/-- A sample whose references are there, and one with a place in the missing file and one that is
missing itself. -/
def straySamples : List Sample :=
  [{ identity := some ⟨1⟩, backtrace := none, locations := [⟨2⟩, ⟨1⟩], tags := [⟨⟨1⟩, ⟨2⟩⟩] },
    { identity := some ⟨2⟩, backtrace := none, locations := [⟨8⟩, ⟨3⟩], tags := [⟨⟨1⟩, ⟨0⟩⟩] }]

theorem first_missing_of_straySamples :
    (∃ enough, ∀ maxBytes, enough ≤ maxBytes → ∃ bytes, encodeProfile strayTables
      (straySamples.take 1)
      { timeNanos := 5, durationNanos := 3, compression := .gzip, maxBytes } = .ok bytes) ∧
    ∃ enough, ∀ maxBytes, enough ≤ maxBytes → encodeProfile strayTables straySamples
      { timeNanos := 5, durationNanos := 3, compression := .none, maxBytes } =
        .error (.unknownString 5) := by
  have live : strayTables.firstMissing? (strayTables.references (straySamples.take 1)) = none := by
    cbv
  have dead : strayTables.firstMissing? (strayTables.references straySamples) =
      some (.text ⟨5⟩) := by cbv
  have few : ((strayTables.reachableTexts (straySamples.take 1)).toFinset.card ≤ 2 ^ 32) ∧
      (strayTables.reachableTexts straySamples).toFinset.card ≤ 2 ^ 32 :=
    ⟨(List.toFinset_card_le _).trans (by cbv), (List.toFinset_card_le _).trans (by cbv)⟩
  constructor
  · obtain ⟨enough, exported⟩ := first_missing_of_encodeProfile few.1 5 3 .gzip
    exact ⟨enough, fun maxBytes large => (exported maxBytes large).1.mpr
      (Tables.firstMissing?_references_eq_none_iff.mp live)⟩
  · obtain ⟨enough, exported⟩ := first_missing_of_encodeProfile few.2 5 3 .none
    refine ⟨enough, fun maxBytes large => ?_⟩
    have not_live : ¬∀ own ∈ straySamples, own.IsLive strayTables := by
      rw [← Tables.firstMissing?_references_eq_none_iff, dead]
      exact Option.some_ne_none _
    obtain ⟨missing, found, failed⟩ := (exported maxBytes large).2 not_live
    cases found.symm.trans dead
    exact failed

end Export

end HeapSampler
