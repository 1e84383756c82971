import HeapSampler.Proofs.Pprof.Directory

/-!
# One meaning under any names and in any order

A producer is free to choose the ids of locations and functions, the positions of strings and the
order of what it writes.  None of this shows in what the profile resolves to: each choice can be
replaced by another, any number of times, and the profile resolves to the same samples or still
cannot be resolved.
-/

namespace HeapSampler.Pprof

/-! ## Other names -/

/-- How the ids of locations and of functions and the offsets of strings are rewritten. -/
structure Naming where
  locationId : UInt64 → UInt64
  functionId : UInt64 → UInt64
  offset : Int64 → Int64

namespace Naming

variable (naming : Naming)

def valueType (own : ValueType) : ValueType where
  type := naming.offset own.type
  unit := naming.offset own.unit

def label (own : Label) : Label where
  key := naming.offset own.key
  str := naming.offset own.str
  num := own.num
  numUnit := naming.offset own.numUnit

def line (own : Line) : Line where
  functionId := naming.functionId own.functionId
  line := own.line

def location (own : Location) : Location where
  id := naming.locationId own.id
  mappingId := own.mappingId
  address := own.address
  lines := own.lines.map naming.line

def function (own : Function) : Function where
  id := naming.functionId own.id
  name := naming.offset own.name
  systemName := naming.offset own.systemName
  filename := naming.offset own.filename

def sample (own : Sample) : Sample where
  locationIds := own.locationIds.map naming.locationId
  values := own.values
  labels := own.labels.map naming.label

/-- The profile with its strings in another order, and with every id and every offset rewritten. -/
def profile (own : Profile) (order : Equiv.Perm (Fin own.strings.length)) : Profile where
  sampleTypes := own.sampleTypes.map naming.valueType
  samples := own.samples.map naming.sample
  locations := own.locations.map naming.location
  functions := own.functions.map naming.function
  strings := List.ofFn fun index => own.strings.get (order.symm index)
  timeNanos := own.timeNanos
  durationNanos := own.durationNanos
  defaultSampleType := naming.offset own.defaultSampleType

end Naming

namespace Profile

def locationIds (profile : Profile) : List UInt64 :=
  profile.locations.map (·.id) ++ profile.samples.flatMap (·.locationIds)

def functionIds (profile : Profile) : List UInt64 :=
  profile.functions.map (·.id) ++
    profile.locations.flatMap fun location => location.lines.map (·.functionId)

theorem mem_locationIds {profile : Profile} {location : Location}
    (member : location ∈ profile.locations) : location.id ∈ profile.locationIds :=
  List.mem_append_left _ (List.mem_map_of_mem member)

theorem mem_functionIds {profile : Profile} {function : Function}
    (member : function ∈ profile.functions) : function.id ∈ profile.functionIds :=
  List.mem_append_left _ (List.mem_map_of_mem member)

end Profile

/-- Different ids stay different, and offsets go where their strings have gone; an offset that is
out of range stays so. -/
structure Naming.Faithful (naming : Naming) (profile : Profile)
    (order : Equiv.Perm (Fin profile.strings.length)) : Prop where
  locationId : Set.InjOn naming.locationId {id | id ∈ profile.locationIds}
  functionId : Set.InjOn naming.functionId {id | id ∈ profile.functionIds}
  inside : ∀ (offset : Int64) (index : Fin profile.strings.length),
    offset.toInt = index.val → (naming.offset offset).toInt = (order index).val
  outside : ∀ offset, ¬profile.InRange offset → ¬profile.InRange (naming.offset offset)

/-- Offsets that go where the strings of a table go; the others stay. -/
def followed {count : Nat} (order : Equiv.Perm (Fin count)) (offset : Int64) : Int64 :=
  if inside : 0 ≤ offset.toInt ∧ offset.toInt.toNat < count then
    Int64.ofNat (order ⟨offset.toInt.toNat, inside.2⟩)
  else offset

theorem toInt_followed {count : Nat} (addressable : count ≤ 2 ^ 63)
    (order : Equiv.Perm (Fin count)) {offset : Int64} {index : Fin count}
    (found : offset.toInt = index.val) : (followed order offset).toInt = (order index).val := by
  have place : (⟨offset.toInt.toNat, by omega⟩ : Fin count) = index := by
    apply Fin.ext
    dsimp only
    omega
  rw [followed, dif_pos (by omega), place]
  exact Int64.toInt_ofNat_of_lt (Nat.lt_of_lt_of_le (order index).isLt addressable)

/-- The strings of a table whose positions are offsets can be put in any order. -/
theorem Naming.faithful_followed {profile : Profile} {locationId functionId : UInt64 → UInt64}
    (addressable : profile.strings.length ≤ 2 ^ 63)
    (order : Equiv.Perm (Fin profile.strings.length))
    (locations : Set.InjOn locationId {id | id ∈ profile.locationIds})
    (functions : Set.InjOn functionId {id | id ∈ profile.functionIds}) :
    Faithful { locationId, functionId, offset := followed order } profile order where
  locationId := locations
  functionId := functions
  inside _ _ found := toInt_followed addressable order found
  outside offset lost := by
    have stays : followed order offset = offset := by
      apply dif_neg
      rw [Profile.InRange] at lost
      omega
    change ¬profile.InRange (followed order offset)
    rwa [stays]

structure Sample.Relabelled (own other : Sample) : Prop where
  locationIds : own.locationIds = other.locationIds
  values : own.values = other.values
  labels : own.labels.Perm other.labels

/-- One choice of the producer is replaced by another. -/
inductive Profile.Rearranged (profile : Profile) : Profile → Prop where
  | samples {samples : List Sample} (same : profile.samples.Perm samples) :
      Rearranged profile { profile with samples }
  | labels {samples : List Sample}
      (same : List.Forall₂ Sample.Relabelled profile.samples samples) :
      Rearranged profile { profile with samples }
  | locations {locations : List Location} (same : profile.locations.Perm locations) :
      Rearranged profile { profile with locations }
  | functions {functions : List Function} (same : profile.functions.Perm functions) :
      Rearranged profile { profile with functions }
  | renamed {naming : Naming} {order : Equiv.Perm (Fin profile.strings.length)}
      (faithful : naming.Faithful profile order) :
      Rearranged profile (naming.profile profile order)

/-! ## Labels in another order -/

theorem Directory.sample?_eq_of_relabelled (directory : Directory) {own other : Sample}
    (relabelled : own.Relabelled other) : directory.sample? own = directory.sample? other := by
  rw [sample?, sample?, relabelled.locationIds, relabelled.values,
    sorted_mapM_eq_of_perm relabelled.labels]

/-! ## Look-ups under other names -/

namespace Naming.Faithful

variable {naming : Naming} {profile : Profile}
  {order : Equiv.Perm (Fin profile.strings.length)}

theorem string?_eq (faithful : naming.Faithful profile order) (offset : Int64) :
    (naming.profile profile order).string? (naming.offset offset) = profile.string? offset := by
  have length_eq : (naming.profile profile order).strings.length = profile.strings.length :=
    List.length_ofFn
  by_cases known : profile.InRange offset
  · obtain ⟨low, high⟩ := known
    have below : offset.toInt.toNat < profile.strings.length := by omega
    have moved := faithful.inside offset ⟨offset.toInt.toNat, below⟩ (by dsimp only; omega)
    rw [Profile.string?, Profile.string?, moved, if_pos (Int.natCast_nonneg _), if_pos low,
      Int.toNat_natCast, List.getElem?_eq_getElem below, Naming.profile, List.getElem?_ofFn,
      dif_pos (Fin.isLt _), Fin.eta, order.symm_apply_apply]
    rfl
  · have lost : ¬(naming.profile profile order).InRange (naming.offset offset) := by
      rw [Profile.InRange, length_eq]
      exact faithful.outside offset known
    rw [← Profile.isSome_string?, Option.not_isSome_iff_eq_none] at known lost
    rw [known, lost]

theorem distinctIds (faithful : naming.Faithful profile order) (distinct : profile.DistinctIds) :
    (naming.profile profile order).DistinctIds where
  locations := nodup_map_map distinct.locations (fun _ => rfl) faithful.locationId
    fun _ => Profile.mem_locationIds
  functions := nodup_map_map distinct.functions (fun _ => rfl) faithful.functionId
    fun _ => Profile.mem_functionIds

theorem location?_eq (faithful : naming.Faithful profile order) {id : UInt64}
    (mentioned : id ∈ profile.locationIds) :
    (naming.profile profile order).location? (naming.locationId id) =
      (profile.location? id).map naming.location := by
  have key_eq (own : Location) : (naming.location own).id = naming.locationId own.id := rfl
  exact find?_reverse_map key_eq faithful.locationId (fun _ => Profile.mem_locationIds) mentioned

theorem function?_eq (faithful : naming.Faithful profile order) {id : UInt64}
    (mentioned : id ∈ profile.functionIds) :
    (naming.profile profile order).function? (naming.functionId id) =
      (profile.function? id).map naming.function := by
  have key_eq (own : Function) : (naming.function own).id = naming.functionId own.id := rfl
  exact find?_reverse_map key_eq faithful.functionId (fun _ => Profile.mem_functionIds) mentioned

theorem frame?_eq (faithful : naming.Faithful profile order) {line : Line}
    (mentioned : line.functionId ∈ profile.functionIds) :
    profile.directory.frame? line =
      (naming.profile profile order).directory.frame? (naming.line line) := by
  have found := faithful.function?_eq mentioned
  simp only [Directory.frame?, Profile.directory, Naming.line, found]
  cases profile.function? line.functionId with
  | none => rfl
  | some function =>
      simp only [Option.map_some, Naming.function, Option.bind_eq_bind, Option.bind_some,
        faithful.string?_eq]

theorem frames?_eq (faithful : naming.Faithful profile order) {id : UInt64}
    (mentioned : id ∈ profile.locationIds) :
    profile.directory.frames? id =
      (naming.profile profile order).directory.frames? (naming.locationId id) := by
  have found := faithful.location?_eq mentioned
  simp only [Directory.frames?, Profile.directory, found]
  cases known : profile.location? id with
  | none => rfl
  | some location =>
      have member : location ∈ profile.locations :=
        List.mem_reverse.mp (List.mem_of_find?_eq_some known)
      apply mapM_eq_mapM_map
      intro line within
      apply faithful.frame?_eq
      apply List.mem_append_right
      exact List.mem_flatMap.mpr ⟨location, member, List.mem_map_of_mem within⟩

theorem tag?_eq (faithful : naming.Faithful profile order) (label : Label) :
    profile.directory.tag? label =
      (naming.profile profile order).directory.tag? (naming.label label) := by
  simp only [Directory.tag?, Profile.directory, Naming.label, faithful.string?_eq]

theorem sample?_eq (faithful : naming.Faithful profile order) {sample : Sample}
    (member : sample ∈ profile.samples) :
    profile.directory.sample? sample =
      (naming.profile profile order).directory.sample? (naming.sample sample) := by
  have frames : sample.locationIds.mapM profile.directory.frames? =
      (naming.sample sample).locationIds.mapM
        (naming.profile profile order).directory.frames? := by
    apply mapM_eq_mapM_map
    intro id used
    apply faithful.frames?_eq
    exact List.mem_append_right _ (List.mem_flatMap.mpr ⟨sample, member, used⟩)
  have tags : sample.labels.mapM profile.directory.tag? =
      (naming.sample sample).labels.mapM (naming.profile profile order).directory.tag? :=
    mapM_eq_mapM_map fun label _ => faithful.tag?_eq label
  rw [Directory.sample?, Directory.sample?, frames, tags]
  rfl

end Naming.Faithful

/-! ## Any rearrangement -/

namespace Profile

variable {profile other : Profile}

/-- One rearrangement changes neither that ids are distinct nor what the profile resolves to. -/
theorem Rearranged.same (distinct : profile.DistinctIds) (rearranged : profile.Rearranged other) :
    other.DistinctIds ∧ other.resolve.toOption = profile.resolve.toOption := by
  cases rearranged with
  | samples same =>
      refine ⟨⟨distinct.locations, distinct.functions⟩, ?_⟩
      rw [toOption_resolve, toOption_resolve]
      exact (sorted_mapM_eq_of_perm same).symm
  | labels same =>
      refine ⟨⟨distinct.locations, distinct.functions⟩, ?_⟩
      rw [toOption_resolve, toOption_resolve]
      apply congrArg
      apply Eq.symm
      apply mapM_eq_of_forall₂
      exact same.imp fun _ _ => profile.directory.sample?_eq_of_relabelled
  | @locations locations same =>
      refine ⟨⟨(same.map _).nodup_iff.mp distinct.locations, distinct.functions⟩, ?_⟩
      have found : location? { profile with locations } = profile.location? := by
        funext id
        exact find?_reverse_eq_of_perm distinct.locations same id
      rw [toOption_resolve, toOption_resolve, directory, found]
      rfl
  | @functions functions same =>
      refine ⟨⟨distinct.locations, (same.map _).nodup_iff.mp distinct.functions⟩, ?_⟩
      have found : function? { profile with functions } = profile.function? := by
        funext id
        exact find?_reverse_eq_of_perm distinct.functions same id
      rw [toOption_resolve, toOption_resolve, directory, found]
      rfl
  | renamed faithful =>
      refine ⟨faithful.distinctIds distinct, ?_⟩
      rw [toOption_resolve, toOption_resolve]
      apply congrArg
      apply Eq.symm
      apply mapM_eq_mapM_map
      intro sample member
      exact faithful.sample?_eq member

theorem Rearranged.same_of_chain (distinct : profile.DistinctIds)
    (chain : Relation.ReflTransGen Rearranged profile other) :
    other.DistinctIds ∧ other.resolve.toOption = profile.resolve.toOption := by
  induction chain with
  | refl => exact ⟨distinct, rfl⟩
  | tail _ rearranged ih =>
      obtain ⟨distinct', same⟩ := ih
      obtain ⟨distinct'', same'⟩ := rearranged.same distinct'
      exact ⟨distinct'', same'.trans same⟩

/-- A profile without ambiguous ids resolves exactly if nothing is missing that its samples lead to,
and no chain of rearrangements changes what it resolves to. -/
theorem resolves_alike_of_rearranged (distinct : profile.DistinctIds)
    (chain : Relation.ReflTransGen Rearranged profile other) :
    ((∃ samples, profile.resolve = .ok samples) ↔ profile.Complete) ∧
      (∀ samples, profile.resolve = .ok samples → other.resolve = .ok samples) ∧
      ∀ cause, profile.resolve = .error cause → ∃ cause', other.resolve = .error cause' := by
  have same := (Rearranged.same_of_chain distinct chain).2
  refine ⟨exists_resolve_iff distinct, ?_, ?_⟩
  · intro samples resolved
    rw [resolved] at same
    cases outcome : other.resolve with
    | ok samples' =>
        rw [outcome] at same
        exact congrArg Except.ok (Option.some.inj same)
    | error cause =>
        rw [outcome] at same
        cases same
  · intro cause failed
    rw [failed] at same
    cases outcome : other.resolve with
    | ok samples =>
        rw [outcome] at same
        cases same
    | error cause' => exact ⟨cause', rfl⟩

/-- Two samples that share a place, one of them with two labels. -/
def sharedPlace : Profile where
  samples := [
    { locationIds := [1, 2], values := [1, 64],
      labels := [{ key := 3, str := 4 }, { key := 4, str := 3 }] },
    { locationIds := [2], values := [1, 8] }]
  locations := [
    { id := 1, lines := [{ functionId := 1, line := 7 }] },
    { id := 2, lines := [{ functionId := 2, line := 9 }] }]
  functions := [{ id := 1, name := 1, filename := 2 }, { id := 2, name := 3, filename := 2 }]
  strings := ["", "main", "main.py", "load", "slow"]

def exchange : Equiv.Perm (Fin 5) := Equiv.swap 1 4

def sharedPlaceReversed : Profile :=
  { sharedPlace with locations := sharedPlace.locations.reverse }

/-- The profile with its locations in reverse, under other ids, and two strings exchanged. -/
def sharedPlaceRearranged : Profile :=
  Naming.profile { locationId := (· + 10), functionId := (3 - ·), offset := followed exchange }
    sharedPlaceReversed exchange

theorem resolves_alike_of_sharedPlace :
    sharedPlace.DistinctIds ∧ Relation.ReflTransGen Rearranged sharedPlace sharedPlaceRearranged ∧
      ((∃ samples, sharedPlace.resolve = .ok samples) ↔ sharedPlace.Complete) ∧
      (∀ samples, sharedPlace.resolve = .ok samples → sharedPlaceRearranged.resolve = .ok samples) ∧
      ∀ cause, sharedPlace.resolve = .error cause →
        ∃ cause', sharedPlaceRearranged.resolve = .error cause' := by
  have distinct : sharedPlace.DistinctIds := ⟨by decide, by decide⟩
  have chain : Relation.ReflTransGen Rearranged sharedPlace sharedPlaceRearranged := by
    have reversed : Rearranged sharedPlace sharedPlaceReversed :=
      .locations (List.reverse_perm _).symm
    have addressable : sharedPlaceReversed.strings.length ≤ 2 ^ 63 := by decide
    refine .tail (.single reversed) (.renamed ?_)
    apply Naming.faithful_followed addressable exchange
    · intro first _ second _ same
      simpa using same
    · intro first _ second _ same
      simpa using same
  exact ⟨distinct, chain, resolves_alike_of_rearranged distinct chain⟩

end Profile

end HeapSampler.Pprof
