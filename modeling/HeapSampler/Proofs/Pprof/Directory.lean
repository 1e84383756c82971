import Mathlib
import HeapSampler.Proofs.Export.Content

/-!
# Profiles that can be resolved

A profile is resolved by looking up ids and offsets.  Which reference is reported when several lead
nowhere depends on the order of the profile, so what comes of the look-ups is described here up to
the cause of a failure.  A profile can be resolved exactly if all that its samples lead to is there.
-/

namespace HeapSampler.Pprof

/-- Whatever the order of the items is, the values are found in the same order. -/
theorem sorted_mapM_eq_of_perm {α β : Type} [Ord β] [Std.TransOrd β] [Std.LawfulEqOrd β]
    {get : α → Option β} {items items' : List α} (same : items.Perm items') :
    (items.mapM get).map sorted = (items'.mapM get).map sorted := by
  cases found : items.mapM get with
  | none =>
      cases found' : items'.mapM get with
      | none => rfl
      | some values' =>
          obtain ⟨values, impossible, -⟩ := mapM_perm same.symm found'
          cases found.symm.trans impossible
  | some values =>
      obtain ⟨values', found', reordered⟩ := mapM_perm same found
      rw [found', Option.map_some, Option.map_some, sorted_eq_of_perm reordered]

/-! ## Look-ups -/

structure Directory where
  string? : Int64 → Option String
  function? : UInt64 → Option Function
  location? : UInt64 → Option Location

namespace Directory

variable (directory : Directory)

def frame? (line : Line) : Option ResolvedFrame := do
  let function ← directory.function? line.functionId
  let functionName ← directory.string? function.name
  let fileName ← directory.string? function.filename
  return { functionName, fileName, line := line.line }

def frames? (id : UInt64) : Option (List ResolvedFrame) := do
  let location ← directory.location? id
  location.lines.mapM directory.frame?

def tag? (label : Label) : Option ResolvedTag := do
  let key ← directory.string? label.key
  let value ← directory.string? label.str
  return { key, value }

def sample? (sample : Sample) : Option ResolvedSample := do
  let frames ← sample.locationIds.mapM directory.frames?
  let tags ← (sample.labels.mapM directory.tag?).map sorted
  return {
    frames := frames.flatten
    tags
    objects := sample.values[0]?.getD 0
    sizeBytes := sample.values[1]?.getD 0 }

end Directory

namespace Profile

variable {profile : Profile}

def directory (profile : Profile) : Directory where
  string? := profile.string?
  function? := profile.function?
  location? := profile.location?

theorem toOption_resolveString (offset : Int64) :
    (profile.resolveString offset).toOption = profile.string? offset := by
  rw [resolveString]
  cases profile.string? offset <;> rfl

theorem toOption_resolveLine (line : Line) :
    (profile.resolveLine line).toOption = profile.directory.frame? line := by
  rw [resolveLine, Directory.frame?]
  change _ = (profile.function? line.functionId).bind _
  cases profile.function? line.functionId with
  | none => rfl
  | some function =>
      simp only [toOption_bind, toOption_resolveString]
      rfl

theorem toOption_resolveLocation (id : UInt64) :
    (profile.resolveLocation id).toOption = profile.directory.frames? id := by
  rw [resolveLocation, Directory.frames?]
  change _ = (profile.location? id).bind _
  cases profile.location? id with
  | none => rfl
  | some location =>
      simp only [toOption_mapM, toOption_resolveLine]
      rfl

theorem toOption_resolveLabel (label : Label) :
    (profile.resolveLabel label).toOption = profile.directory.tag? label := by
  simp only [resolveLabel, toOption_bind, toOption_resolveString]
  rfl

theorem toOption_resolveSample (sample : Sample) :
    (profile.resolveSample sample).toOption = profile.directory.sample? sample := by
  simp only [resolveSample, toOption_bind, toOption_mapM, toOption_resolveLocation,
    toOption_resolveLabel, Directory.sample?]
  apply congrArg (Option.bind _)
  funext frames
  cases sample.labels.mapM profile.directory.tag? <;> rfl

theorem toOption_resolve :
    profile.resolve.toOption = (profile.samples.mapM profile.directory.sample?).map sorted := by
  simp only [resolve, toOption_bind, toOption_mapM, toOption_resolveSample]
  cases profile.samples.mapM profile.directory.sample? <;> rfl

/-! ## Profiles that have all that their samples lead to -/

structure DistinctIds (profile : Profile) : Prop where
  locations : (profile.locations.map (·.id)).Nodup
  functions : (profile.functions.map (·.id)).Nodup

def InRange (profile : Profile) (offset : Int64) : Prop :=
  0 ≤ offset.toInt ∧ offset.toInt < profile.strings.length

def UsesLocation (profile : Profile) (location : Location) : Prop :=
  location ∈ profile.locations ∧ ∃ sample ∈ profile.samples, location.id ∈ sample.locationIds

def UsesFunction (profile : Profile) (function : Function) : Prop :=
  function ∈ profile.functions ∧
    ∃ location, profile.UsesLocation location ∧ function.id ∈ location.lines.map (·.functionId)

structure Complete (profile : Profile) : Prop where
  locations : ∀ sample ∈ profile.samples, ∀ id ∈ sample.locationIds,
    id ∈ profile.locations.map (·.id)
  functions : ∀ location, profile.UsesLocation location → ∀ line ∈ location.lines,
    line.functionId ∈ profile.functions.map (·.id)
  names : ∀ function, profile.UsesFunction function →
    profile.InRange function.name ∧ profile.InRange function.filename
  labels : ∀ sample ∈ profile.samples, ∀ label ∈ sample.labels,
    profile.InRange label.key ∧ profile.InRange label.str

theorem isSome_string? {offset : Int64} :
    (profile.string? offset).isSome ↔ profile.InRange offset := by
  rw [string?, InRange]
  split
  · rw [isSome_getElem?]
    omega
  · simp only [Option.isSome_none, Bool.false_eq_true, false_iff]
    omega

theorem location?_eq_some_iff (distinct : profile.DistinctIds) {id : UInt64} {location : Location} :
    profile.location? id = some location ↔ location ∈ profile.locations ∧ location.id = id :=
  find?_reverse_eq_some_iff distinct.locations

theorem function?_eq_some_iff (distinct : profile.DistinctIds) {id : UInt64} {function : Function} :
    profile.function? id = some function ↔ function ∈ profile.functions ∧ function.id = id :=
  find?_reverse_eq_some_iff distinct.functions

theorem isSome_frame? {line : Line} :
    (profile.directory.frame? line).isSome ↔
      ∃ function, profile.function? line.functionId = some function ∧
        profile.InRange function.name ∧ profile.InRange function.filename := by
  simp only [← isSome_string?]
  exact isSome_bind.trans (exists_congr fun _ => and_congr_right fun _ => isSome_both)

theorem isSome_frames? {id : UInt64} :
    (profile.directory.frames? id).isSome ↔
      ∃ location, profile.location? id = some location ∧
        ∀ line ∈ location.lines, (profile.directory.frame? line).isSome :=
  isSome_bind.trans (exists_congr fun _ => and_congr_right fun _ => isSome_mapM)

theorem isSome_tag? {label : Label} :
    (profile.directory.tag? label).isSome ↔
      profile.InRange label.key ∧ profile.InRange label.str := by
  simp only [← isSome_string?]
  exact isSome_both

theorem isSome_sample? {sample : Sample} :
    (profile.directory.sample? sample).isSome ↔
      (∀ id ∈ sample.locationIds, (profile.directory.frames? id).isSome) ∧
        ∀ label ∈ sample.labels, (profile.directory.tag? label).isSome := by
  rw [← isSome_mapM, ← isSome_mapM, Directory.sample?]
  cases sample.locationIds.mapM profile.directory.frames? <;>
    cases sample.labels.mapM profile.directory.tag? <;> simp

theorem isSome_sample?_of_complete (distinct : profile.DistinctIds) (complete : profile.Complete)
    {sample : Sample} (member : sample ∈ profile.samples) :
    (profile.directory.sample? sample).isSome := by
  apply isSome_sample?.mpr
  constructor
  · intro id used
    obtain ⟨location, listed, rfl⟩ := List.mem_map.mp (complete.locations sample member id used)
    have uses : profile.UsesLocation location := ⟨listed, sample, member, used⟩
    refine isSome_frames?.mpr ⟨location, (location?_eq_some_iff distinct).mpr ⟨listed, rfl⟩, ?_⟩
    intro line within
    obtain ⟨function, known, same⟩ :=
      List.mem_map.mp (complete.functions location uses line within)
    apply isSome_frame?.mpr
    refine ⟨function, (function?_eq_some_iff distinct).mpr ⟨known, same⟩, ?_⟩
    apply complete.names function
    exact ⟨known, location, uses, List.mem_map.mpr ⟨line, within, same.symm⟩⟩
  · intro label within
    exact isSome_tag?.mpr (complete.labels sample member label within)

theorem complete_of_isSome_sample? (distinct : profile.DistinctIds)
    (each : ∀ sample ∈ profile.samples, (profile.directory.sample? sample).isSome) :
    profile.Complete := by
  have used {location : Location} (uses : profile.UsesLocation location) {line : Line}
      (within : line ∈ location.lines) : ∃ function ∈ profile.functions,
        function.id = line.functionId ∧
          profile.InRange function.name ∧ profile.InRange function.filename := by
    obtain ⟨listed, sample, member, mentioned⟩ := uses
    obtain ⟨found, found_eq, lines⟩ :=
      isSome_frames?.mp ((isSome_sample?.mp (each sample member)).1 _ mentioned)
    rw [(location?_eq_some_iff distinct).mpr ⟨listed, rfl⟩] at found_eq
    cases found_eq
    obtain ⟨function, function_eq, named⟩ := isSome_frame?.mp (lines line within)
    obtain ⟨known, same⟩ := (function?_eq_some_iff distinct).mp function_eq
    exact ⟨function, known, same, named⟩
  constructor
  case locations =>
    intro sample member id mentioned
    obtain ⟨location, found, -⟩ :=
      isSome_frames?.mp ((isSome_sample?.mp (each sample member)).1 id mentioned)
    obtain ⟨listed, same⟩ := (location?_eq_some_iff distinct).mp found
    exact List.mem_map.mpr ⟨location, listed, same⟩
  case functions =>
    intro location uses line within
    obtain ⟨function, known, same, -⟩ := used uses within
    exact List.mem_map.mpr ⟨function, known, same⟩
  case names =>
    rintro function ⟨known, location, uses, mentioned⟩
    obtain ⟨line, within, same⟩ := List.mem_map.mp mentioned
    obtain ⟨other, other_known, other_same, named⟩ := used uses within
    rwa [List.inj_on_of_nodup_map distinct.functions other_known known
      (other_same.trans same)] at named
  case labels =>
    intro sample member label within
    exact isSome_tag?.mp ((isSome_sample?.mp (each sample member)).2 label within)

theorem exists_resolve_iff (distinct : profile.DistinctIds) :
    (∃ samples, profile.resolve = .ok samples) ↔ profile.Complete := by
  have success : (∃ samples, profile.resolve = .ok samples) ↔ profile.resolve.toOption.isSome := by
    cases profile.resolve <;> simp [Except.toOption]
  rw [success, toOption_resolve, Option.isSome_map, isSome_mapM]
  constructor
  · intro each
    exact complete_of_isSome_sample? distinct each
  · intro complete sample member
    exact isSome_sample?_of_complete distinct complete member

end Profile

end HeapSampler.Pprof
