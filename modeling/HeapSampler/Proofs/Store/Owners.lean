import Mathlib
import HeapSampler.Store.Arena
import HeapSampler.Proofs.Intern.Cells

/-!
# The owners of samples

An arena is accounted for by a list of handles if each sample has as many owners as its handle
occurs in the list.  A handle then leads to a sample exactly if it is listed, and what each
operation does to the list says what it does to the samples.
-/

namespace HeapSampler.Arena

variable {arena after : Arena} {handle other : Handle} {old content : Owned} {sample : Sample}
  {owners : List Handle}

theorem owned?_eq_some_iff : arena.owned? handle = some content ↔
    arena.generation handle.index = handle.generation ∧
      arena.slab.get? handle.index = some content := by
  unfold owned?
  split <;> simp_all

theorem get?_eq_some_iff :
    arena.get? handle = some sample ↔
      ∃ content, arena.owned? handle = some content ∧ content.sample = sample :=
  Option.map_eq_some_iff

/-! ## Single cells -/

theorem owned?_of_outdated (outdated : arena.generation handle.index ≠ handle.generation) :
    arena.owned? handle = none := if_neg outdated

theorem owned?_of_vacant (vacant : arena.slab.get? handle.index = none) :
    arena.owned? handle = none := by
  unfold owned?
  split
  · exact vacant
  · rfl

/-- Of the handles with one index only the current one leads anywhere. -/
theorem owned?_of_index_eq (found : arena.owned? handle = some old)
    (place : other.index = handle.index) (apart : other ≠ handle) : arena.owned? other = none := by
  refine owned?_of_outdated fun current => apart ?_
  have generation := (owned?_eq_some_iff.mp found).1
  rw [← place, current] at generation
  cases other
  cases handle
  simp_all

theorem owned?_replace (found : arena.owned? handle = some old) (content : Owned)
    (other : Handle) :
    owned? { arena with slab := arena.slab.put handle.index content } other =
      if other = handle then some content else arena.owned? other := by
  obtain ⟨current, present⟩ := owned?_eq_some_iff.mp found
  by_cases same : other = handle
  · subst same
    rw [if_pos rfl]
    exact owned?_eq_some_iff.mpr ⟨current, by rw [Slab.get?_put present, if_pos rfl]⟩
  · rw [if_neg same]
    by_cases place : other.index = handle.index
    · rw [owned?_of_index_eq found place same]
      refine owned?_of_outdated fun current' => same ?_
      change arena.generation other.index = other.generation at current'
      rw [place, current] at current'
      cases other
      cases handle
      simp_all
    · unfold owned?
      rw [Slab.get?_put present, if_neg place]
      rfl

theorem owned?_vacate (found : arena.owned? handle = some old) (renewed : UInt32) (size : Nat)
    (other : Handle) :
    owned? { slab := arena.slab.erase handle.index
             generations := arena.generations.setIfInBounds handle.index renewed, size } other =
      if other = handle then none else arena.owned? other := by
  by_cases place : other.index = handle.index
  · have gone : owned? { slab := arena.slab.erase handle.index
                         generations := arena.generations.setIfInBounds handle.index renewed, size }
        other = none := owned?_of_vacant (by simp [Slab.get?_erase, place])
    rw [gone]
    split
    · rfl
    · rename_i apart
      exact (owned?_of_index_eq found place apart).symm
  · have apart : other ≠ handle := fun same => place (congrArg Handle.index same)
    have generation_eq : generation { slab := arena.slab.erase handle.index
                                      generations :=
                                        arena.generations.setIfInBounds handle.index renewed
                                      size }
        other.index = arena.generation other.index := by
      simp [generation, Ne.symm place]
    rw [if_neg apart]
    unfold owned?
    rw [generation_eq, Slab.get?_erase, if_neg place]

theorem get?_replace (found : arena.owned? handle = some old) (content : Owned)
    (other : Handle) :
    get? { arena with slab := arena.slab.put handle.index content } other =
      if other = handle then some content.sample else arena.get? other := by
  rw [get?, owned?_replace found]
  split
  · rfl
  · rfl

theorem get?_vacate (found : arena.owned? handle = some old) (renewed : UInt32) (size : Nat)
    (other : Handle) :
    get? { slab := arena.slab.erase handle.index
           generations := arena.generations.setIfInBounds handle.index renewed, size } other =
      if other = handle then none else arena.get? other := by
  rw [get?, owned?_vacate found]
  split
  · rfl
  · rfl

/-- The cell that is filled next becomes current with its content. -/
theorem owned?_fill (sound : arena.slab.Sound) {generations : Array UInt32}
    (same : ∀ index, generation { arena with generations } index = arena.generation index)
    (content : Owned) (size : Nat) (other : Handle) :
    owned? { slab := arena.slab.insert content, generations, size } other =
      if other = ⟨arena.slab.next, arena.generation arena.slab.next⟩ then some content
      else arena.owned? other := by
  have generation_eq :
      generation { slab := arena.slab.insert content, generations, size } other.index =
        arena.generation other.index := same other.index
  unfold owned?
  rw [generation_eq, sound.get?_insert]
  by_cases place : other.index = arena.slab.next
  · rw [place, sound.get?_next, if_pos rfl, ite_self]
    refine if_congr ?_ rfl rfl
    rw [← place]
    constructor
    · intro current
      rw [current]
    · intro equal
      rw [equal]
  · have apart : other ≠ ⟨arena.slab.next, arena.generation arena.slab.next⟩ :=
      fun equal => place (congrArg Handle.index equal)
    rw [if_neg place, if_neg apart]

/-- Where a fresh sample goes; no cell changes its generation for it. -/
theorem exists_of_insert (inserted : arena.insert sample = some (after, handle)) :
    ∃ generations,
      (∀ index, generation { arena with generations } index = arena.generation index) ∧
        after = { slab := arena.slab.insert ⟨sample, 1⟩, generations, size := arena.size + 1 } ∧
        handle = ⟨arena.slab.next, arena.generation arena.slab.next⟩ := by
  have same (index : Nat) : generation { arena with
      generations := if arena.slab.next < arena.generations.size then arena.generations
        else arena.generations.push 0 } index = arena.generation index := by
    unfold generation
    split
    · rfl
    · rw [Array.getElem?_push]
      split
      · rename_i last
        simp [last]
      · rfl
  simp only [Arena.insert, Option.ite_none_right_eq_some, Option.some.injEq, Prod.mk.injEq]
    at inserted
  obtain ⟨_, rfl, rfl⟩ := inserted
  exact ⟨_, same, rfl, congrArg (Handle.mk _) (same _)⟩

theorem samples_eq (arena : Arena) :
    arena.samples = arena.slab.entries.map fun entry => entry.2.sample := rfl

theorem mem_samples : sample ∈ arena.samples ↔ ∃ handle, arena.get? handle = some sample := by
  rw [samples_eq, List.mem_map]
  constructor
  · rintro ⟨⟨index, content⟩, member, rfl⟩
    refine ⟨⟨index, arena.generation index⟩, get?_eq_some_iff.mpr ⟨content, ?_, rfl⟩⟩
    exact owned?_eq_some_iff.mpr ⟨rfl, Slab.mem_entries.mp member⟩
  · rintro ⟨handle, found⟩
    obtain ⟨content, content_found, rfl⟩ := get?_eq_some_iff.mp found
    exact ⟨(handle.index, content), Slab.mem_entries.mpr (owned?_eq_some_iff.mp content_found).2,
      rfl⟩

/-- As many cells hold something as handles lead to a sample. -/
theorem exists_handles (arena : Arena) : ∃ handles : Finset Handle,
    arena.slab.occupied = handles.card ∧
    ∀ handle, handle ∈ handles ↔ ∃ sample, arena.get? handle = some sample := by
  let handleOf (entry : Nat × Owned) : Handle := ⟨entry.1, arena.generation entry.1⟩
  have apart : (arena.slab.entries.map handleOf).Nodup := by
    refine arena.slab.nodup_entries.map_on ?_
    intro entry listed entry' listed' same
    have index_eq : entry.1 = entry'.1 := congrArg Handle.index same
    have found := Slab.mem_entries.mp listed
    rw [index_eq, Slab.mem_entries.mp listed'] at found
    exact Prod.ext index_eq (Option.some.inj found).symm
  refine ⟨(arena.slab.entries.map handleOf).toFinset, ?_, fun handle => ?_⟩
  · rw [Slab.occupied_eq_length, List.toFinset_card_of_nodup apart, List.length_map]
  · rw [List.mem_toFinset, List.mem_map]
    constructor
    · rintro ⟨entry, listed, rfl⟩
      have found : arena.owned? (handleOf entry) = some entry.2 :=
        owned?_eq_some_iff.mpr ⟨rfl, Slab.mem_entries.mp listed⟩
      exact ⟨entry.2.sample, get?_eq_some_iff.mpr ⟨entry.2, found, rfl⟩⟩
    · rintro ⟨sample, reached⟩
      obtain ⟨content, found, -⟩ := get?_eq_some_iff.mp reached
      obtain ⟨current, present⟩ := owned?_eq_some_iff.mp found
      exact ⟨(handle.index, content), Slab.mem_entries.mpr present, congrArg (Handle.mk _) current⟩

theorem samples_replace (found : arena.owned? handle = some old) (content : Owned) :
    ∃ rest, arena.samples.Perm (old.sample :: rest) ∧
      (samples { arena with slab := arena.slab.put handle.index content }).Perm
        (content.sample :: rest) := by
  have present := (owned?_eq_some_iff.mp found).2
  exact ⟨_, (Slab.entries_perm_erase present).map _, (Slab.entries_put present content).map _⟩

theorem samples_vacate (found : arena.owned? handle = some old) (generations : Array UInt32)
    (size : Nat) : arena.samples.Perm
      (old.sample :: samples { slab := arena.slab.erase handle.index, generations, size }) :=
  (Slab.entries_perm_erase (owned?_eq_some_iff.mp found).2).map _

/-- What an arena holds of which one sample was set. -/
theorem eq_or_ne_of_get? {before : Handle → Option Sample} {new : Sample}
    (reads : ∀ other, arena.get? other = if other = handle then some new else before other)
    (reached : arena.get? other = some sample) :
    other = handle ∧ sample = new ∨ other ≠ handle ∧ before other = some sample := by
  rw [reads] at reached
  split at reached
  · rename_i same
    exact .inl ⟨same, (Option.some.inj reached).symm⟩
  · rename_i apart
    exact .inr ⟨apart, reached⟩

/-! ## Accounts -/

/-- Each sample has as many owners as its handle is listed, and all samples are counted. -/
structure Accounted (arena : Arena) (owners : List Handle) : Prop where
  slab : arena.slab.Sound
  size_eq : arena.size = arena.slab.occupied
  owners_eq : ∀ handle, (arena.owners? handle).getD 0 = owners.count handle
  owners_pos : ∀ {handle : Handle} {content : Owned},
    arena.owned? handle = some content → 0 < content.owners

theorem accounted_empty : ({} : Arena).Accounted [] where
  slab := Slab.sound_empty
  size_eq := rfl
  owners_eq handle := by simp [owners?, owned?]
  owners_pos {handle content} found := by simp [owned?] at found

namespace Accounted

theorem congr (accounted : arena.Accounted owners) {owners' : List Handle}
    (same : owners.Perm owners') : arena.Accounted owners' where
  slab := accounted.slab
  size_eq := accounted.size_eq
  owners_eq handle := by rw [accounted.owners_eq, same.count_eq]
  owners_pos := accounted.owners_pos

theorem count_eq (accounted : arena.Accounted owners) (found : arena.owned? handle = some content) :
    content.owners = owners.count handle := by
  simpa [owners?, found] using accounted.owners_eq handle

theorem mem_of_owned? (accounted : arena.Accounted owners)
    (found : arena.owned? handle = some content) : handle ∈ owners := by
  rw [← List.count_pos_iff, ← accounted.count_eq found]
  exact accounted.owners_pos found

theorem exists_owned (accounted : arena.Accounted owners) (listed : handle ∈ owners) :
    ∃ content, arena.owned? handle = some content := by
  cases found : arena.owned? handle with
  | some content => exact ⟨content, rfl⟩
  | none =>
      have none_left := accounted.owners_eq handle
      simp only [owners?, found, Option.map_none, Option.getD_none] at none_left
      exact absurd (List.count_pos_iff.mpr listed) (by omega)

/-- A handle leads to a sample exactly if the sample has an owner. -/
theorem mem_iff (accounted : arena.Accounted owners) :
    handle ∈ owners ↔ ∃ sample, arena.get? handle = some sample := by
  constructor
  · intro listed
    obtain ⟨content, found⟩ := accounted.exists_owned listed
    exact ⟨content.sample, get?_eq_some_iff.mpr ⟨content, found, rfl⟩⟩
  · rintro ⟨sample, found⟩
    obtain ⟨content, content_found, _⟩ := get?_eq_some_iff.mp found
    exact accounted.mem_of_owned? content_found

theorem samples_eq_nil (accounted : arena.Accounted []) : arena.samples = [] := by
  rw [List.eq_nil_iff_forall_not_mem]
  intro sample member
  obtain ⟨handle, found⟩ := mem_samples.mp member
  exact absurd (accounted.mem_iff.mpr ⟨sample, found⟩) List.not_mem_nil

/-- There are as many samples as handles that are listed, however often each of them is. -/
theorem size_eq_card (accounted : arena.Accounted owners) : arena.size = owners.toFinset.card := by
  obtain ⟨handles, occupied_eq, leads⟩ := exists_handles arena
  have same : handles = owners.toFinset := by
    ext handle
    rw [leads, List.mem_toFinset, accounted.mem_iff]
  rw [accounted.size_eq, occupied_eq, same]

/-- If no sample has two owners there are as many samples as owners. -/
theorem size_eq_length (accounted : arena.Accounted owners) (nodup : owners.Nodup) :
    arena.size = owners.length := by
  rw [accounted.size_eq_card, List.toFinset_card_of_nodup nodup]

theorem replace (accounted : arena.Accounted owners) (found : arena.owned? handle = some old)
    {owners' : List Handle} {count : Nat} (positive : 0 < count)
    (listed : ∀ other, owners'.count other = if other = handle then count else owners.count other)
    (sample : Sample) :
    Accounted { arena with slab := arena.slab.put handle.index ⟨sample, count⟩ } owners' where
  slab := accounted.slab.put (owned?_eq_some_iff.mp found).2 _
  size_eq := accounted.size_eq.trans (Slab.occupied_put (owned?_eq_some_iff.mp found).2 _).symm
  owners_eq other := by
    rw [owners?, owned?_replace found, listed]
    split
    · rfl
    · exact accounted.owners_eq other
  owners_pos {other content} reached := by
    rw [owned?_replace found] at reached
    split at reached
    · cases reached
      exact positive
    · exact accounted.owners_pos reached

theorem vacate (accounted : arena.Accounted (handle :: owners))
    (found : arena.owned? handle = some old) (last : handle ∉ owners) (renewed : UInt32) :
    Accounted
      { slab := arena.slab.erase handle.index
        generations := arena.generations.setIfInBounds handle.index renewed
        size := arena.size - 1 } owners where
  slab := accounted.slab.erase (owned?_eq_some_iff.mp found).2
  size_eq := by
    have fewer := Slab.occupied_erase (owned?_eq_some_iff.mp found).2
    have counted := accounted.size_eq
    dsimp only
    omega
  owners_eq other := by
    rw [owners?, owned?_vacate found]
    split
    · rename_i same
      rw [same, List.count_eq_zero.mpr last]
      rfl
    · rename_i apart
      have before := accounted.owners_eq other
      rw [List.count_cons_of_ne (Ne.symm apart)] at before
      exact before
  owners_pos {other content} reached := by
    rw [owned?_vacate found] at reached
    split at reached
    · cases reached
    · exact accounted.owners_pos reached

theorem modify (accounted : arena.Accounted owners) (found : arena.get? handle = some sample)
    (change : Sample → Sample) :
    ∃ after, arena.modify? handle change = some after ∧ after.Accounted owners ∧
      (∀ other, after.get? other =
        if other = handle then some (change sample) else arena.get? other) ∧
      ∃ rest, arena.samples.Perm (sample :: rest) ∧ after.samples.Perm (change sample :: rest) := by
  obtain ⟨content, reached, rfl⟩ := get?_eq_some_iff.mp found
  refine ⟨
    { arena with slab := arena.slab.put handle.index ⟨change content.sample, content.owners⟩ },
    by simp [modify?, reached], ?_, get?_replace reached _, samples_replace reached _⟩
  refine accounted.replace reached (accounted.owners_pos reached) (fun other => ?_) _
  split
  · rename_i same
    rw [same, accounted.count_eq reached]
  · rfl

theorem retain (accounted : arena.Accounted owners) (retained : arena.retain? handle = some after) :
    after.Accounted (handle :: owners) ∧ (∀ other, after.get? other = arena.get? other) ∧
      after.samples.Perm arena.samples := by
  unfold retain? at retained
  cases reached : arena.owned? handle with
  | none => simp [reached] at retained
  | some content =>
      simp only [reached, Option.ite_none_right_eq_some, Option.some.injEq] at retained
      obtain ⟨_, rfl⟩ := retained
      refine ⟨accounted.replace reached (Nat.succ_pos _) (fun other => ?_) _, fun other => ?_, ?_⟩
      · rw [List.count_cons]
        by_cases same : other = handle
        · simp [same, accounted.count_eq reached]
        · simp [same, Ne.symm same]
      · rw [get?_replace reached]
        split
        · rename_i same
          simp [get?, same, reached]
        · rfl
      · obtain ⟨rest, before, now⟩ := samples_replace reached ⟨content.sample, content.owners + 1⟩
        exact now.trans before.symm

/-- Releasing takes one owner away; the sample goes with the last one and not before. -/
theorem release (accounted : arena.Accounted (handle :: owners)) :
    ∃ after last sample, arena.release? handle = some (after, last) ∧
      arena.get? handle = some sample ∧ after.Accounted owners ∧
      (∀ other, after.get? other =
        if other = handle ∧ handle ∉ owners then none else arena.get? other) ∧
      (handle ∈ owners ∧ last = none ∧ after.samples.Perm arena.samples ∨
        handle ∉ owners ∧ last = some sample ∧ arena.samples.Perm (sample :: after.samples)) := by
  obtain ⟨content, reached⟩ := accounted.exists_owned List.mem_cons_self
  have counted := accounted.count_eq reached
  rw [List.count_cons_self] at counted
  have found : arena.get? handle = some content.sample :=
    get?_eq_some_iff.mpr ⟨content, reached, rfl⟩
  by_cases listed : handle ∈ owners
  · have several : 1 < content.owners := by
      have := List.count_pos_iff.mpr listed
      omega
    refine ⟨_, _, content.sample,
      by simp only [release?, reached, several, if_true, Option.map_some]; rfl,
      found, ?_, fun other => ?_, .inl ⟨listed, rfl, ?_⟩⟩
    · refine accounted.replace reached (by omega) (fun other => ?_) _
      split
      · rename_i same
        rw [same]
        omega
      · rename_i apart
        rw [List.count_cons_of_ne (Ne.symm apart)]
    · have stays : ¬(other = handle ∧ handle ∉ owners) := fun gone => gone.2 listed
      rw [get?_replace reached, if_neg stays]
      split
      · rename_i same
        rw [same, found]
      · rfl
    · obtain ⟨rest, before, now⟩ := samples_replace reached ⟨content.sample, content.owners - 1⟩
      exact now.trans before.symm
  · have single : ¬1 < content.owners := by
      have := List.count_eq_zero.mpr listed
      omega
    refine ⟨_, _, content.sample,
      by simp only [release?, reached, single, if_false, Option.map_some]; rfl,
      found, accounted.vacate reached listed _, fun other => ?_,
      .inr ⟨listed, rfl, samples_vacate reached _ _⟩⟩
    rw [get?_vacate reached]
    exact if_congr (and_iff_left listed).symm rfl rfl

/-- A fresh sample gets a handle that led nowhere before. -/
theorem insert (accounted : arena.Accounted owners)
    (inserted : arena.insert sample = some (after, handle)) :
    after.Accounted (handle :: owners) ∧ handle ∉ owners ∧
      (∀ other, after.get? other = if other = handle then some sample else arena.get? other) ∧
      after.samples.Perm (sample :: arena.samples) := by
  obtain ⟨generations, same, rfl, rfl⟩ := exists_of_insert inserted
  have reached := owned?_fill accounted.slab same ⟨sample, 1⟩ (arena.size + 1)
  have counted : arena.size + 1 = (arena.slab.insert ⟨sample, 1⟩).occupied := by
    rw [accounted.slab.occupied_insert, accounted.size_eq]
  have unlisted : (⟨arena.slab.next, arena.generation arena.slab.next⟩ : Handle) ∉ owners := by
    intro listed
    obtain ⟨content, found⟩ := accounted.exists_owned listed
    rw [owned?_of_vacant accounted.slab.get?_next] at found
    cases found
  refine ⟨
    ⟨accounted.slab.insert _, counted, fun other => ?_, fun {other} {content} remains => ?_⟩,
    unlisted,
    fun other => ?_, (accounted.slab.entries_insert _).map _⟩
  · rw [owners?, reached, List.count_cons]
    by_cases equal : other = ⟨arena.slab.next, arena.generation arena.slab.next⟩
    · simp [equal, List.count_eq_zero.mpr unlisted]
    · simpa [equal, Ne.symm equal, owners?] using accounted.owners_eq other
  · rw [reached] at remains
    split at remains
    · cases remains
      exact Nat.one_pos
    · exact accounted.owners_pos remains
  · rw [get?, reached]
    split
    · rfl
    · rfl

end Accounted

end HeapSampler.Arena
