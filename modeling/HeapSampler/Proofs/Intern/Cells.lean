import Mathlib
import HeapSampler.Intern.Slab

/-!
# What the cells of a slab hold

A slab is sound if its free list names each vacant cell exactly once.  Filling, replacing and
vacating a cell then changes that cell alone, and the list of entries changes by that entry alone.
-/

namespace HeapSampler.Slab

variable {α : Type} {slab : Slab α} {index other : Nat} {content old : α}

/-- The free list names each vacant cell once and nothing else. -/
structure Sound (slab : Slab α) : Prop where
  free_nodup : slab.free.Nodup
  mem_free_iff : ∀ index, index ∈ slab.free ↔ index < slab.cells.size ∧ slab.get? index = none

theorem lt_size_of_get? (present : slab.get? index = some content) : index < slab.cells.size := by
  unfold get? at present
  cases found : slab.cells[index]? with
  | none => simp [found] at present
  | some cell => exact (Array.getElem?_eq_some_iff.mp found).1

theorem get?_eq_none_of_size_le (beyond : slab.cells.size ≤ index) : slab.get? index = none := by
  simp [get?, Array.getElem?_eq_none beyond]

@[simp]
theorem get?_empty (index : Nat) : ({} : Slab α).get? index = none := rfl

theorem sound_empty : ({} : Slab α).Sound where
  free_nodup := .nil
  mem_free_iff index := by simp

/-- Without a vacant cell every cell is in use. -/
theorem Sound.occupied_eq_size (sound : slab.Sound) (no_free : slab.free = []) :
    slab.occupied = slab.cells.size := by
  rw [occupied, Array.countP_eq_size]
  intro cell member
  obtain ⟨index, inside, rfl⟩ := Array.mem_iff_getElem.mp member
  by_contra vacant
  have gone : slab.get? index = none := by
    rw [get?, Array.getElem?_eq_getElem inside]
    simpa using vacant
  have free := (sound.mem_free_iff index).mpr ⟨inside, gone⟩
  rw [no_free] at free
  cases free

/-! ## Replacing -/

theorem get?_put (present : slab.get? index = some old) (content : α) (other : Nat) :
    (slab.put index content).get? other =
      if other = index then some content else slab.get? other := by
  have inside := lt_size_of_get? present
  unfold get? put
  rw [Array.getElem?_setIfInBounds]
  by_cases same : index = other
  · subst same
    simp [inside]
  · simp [same, Ne.symm same]

theorem Sound.put (sound : slab.Sound) (present : slab.get? index = some old) (content : α) :
    (slab.put index content).Sound where
  free_nodup := sound.free_nodup
  mem_free_iff other := by
    have vacant := sound.mem_free_iff other
    rw [get?_put present]
    by_cases same : other = index
    · subst same
      simp only [Slab.put, Array.size_setIfInBounds, if_true, reduceCtorEq, and_false, iff_false]
      rw [vacant, present]
      simp
    · simpa [Slab.put, same] using vacant

/-! ## Vacating -/

theorem get?_erase (slab : Slab α) (index other : Nat) :
    (slab.erase index).get? other = if other = index then none else slab.get? other := by
  unfold get? erase
  rw [Array.getElem?_setIfInBounds]
  by_cases same : index = other
  · subst same
    by_cases inside : index < slab.cells.size <;> simp [inside]
  · simp [same, Ne.symm same]

theorem Sound.erase (sound : slab.Sound) (present : slab.get? index = some old) :
    (slab.erase index).Sound where
  free_nodup := by
    refine List.nodup_cons.mpr ⟨fun member => ?_, sound.free_nodup⟩
    rw [sound.mem_free_iff, present] at member
    simp at member
  mem_free_iff other := by
    have vacant := sound.mem_free_iff other
    have inside := lt_size_of_get? present
    rw [get?_erase]
    by_cases same : other = index
    · subst same
      simpa [Slab.erase] using inside
    · simpa [Slab.erase, same] using vacant

/-! ## Filling -/

theorem Sound.get?_next (sound : slab.Sound) : slab.get? slab.next = none := by
  cases vacant : slab.free with
  | nil => exact get?_eq_none_of_size_le (by simp [next, vacant])
  | cons index rest =>
      have first : slab.next = index := by simp [next, vacant]
      rw [first]
      exact ((sound.mem_free_iff index).mp (by simp [vacant])).2

theorem Sound.get?_insert (sound : slab.Sound) (content : α) (other : Nat) :
    (slab.insert content).get? other =
      if other = slab.next then some content else slab.get? other := by
  unfold get? insert next
  cases vacant : slab.free with
  | nil =>
      simp only [List.head?_nil, Option.getD_none, Array.getElem?_push]
      by_cases last : other = slab.cells.size <;> simp [last]
  | cons index rest =>
      have inside := ((sound.mem_free_iff index).mp (by simp [vacant])).1
      simp only [List.head?_cons, Option.getD_some, Array.getElem?_setIfInBounds]
      by_cases same : index = other
      · subst same
        simp [inside]
      · simp [same, Ne.symm same]

theorem Sound.insert (sound : slab.Sound) (content : α) : (slab.insert content).Sound := by
  cases vacant : slab.free with
  | nil =>
      have none_free : (slab.insert content).free = [] := by simp [Slab.insert, vacant]
      refine ⟨by rw [none_free]; exact .nil, fun index => ?_⟩
      have before := sound.mem_free_iff index
      rw [vacant] at before
      rw [sound.get?_insert, none_free]
      by_cases last : index = slab.cells.size
      · simp [last, next, vacant]
      · have size : (slab.insert content).cells.size = slab.cells.size + 1 := by
          simp [Slab.insert, vacant]
        have absent : ¬(index < slab.cells.size ∧ slab.get? index = none) := by simpa using before
        simp only [next, vacant, List.head?_nil, Option.getD_none, last, if_false, size]
        simp only [List.not_mem_nil, false_iff]
        rintro ⟨below, gone⟩
        exact absent ⟨by omega, gone⟩
  | cons first rest =>
      have left : (slab.insert content).free = rest := by simp [Slab.insert, vacant]
      have nodup := sound.free_nodup
      rw [vacant, List.nodup_cons] at nodup
      refine ⟨left ▸ nodup.2, fun index => ?_⟩
      have before := sound.mem_free_iff index
      have size : (slab.insert content).cells.size = slab.cells.size := by
        simp [Slab.insert, vacant]
      have next_eq : slab.next = first := by simp [next, vacant]
      rw [sound.get?_insert, left, size, next_eq]
      rw [vacant, List.mem_cons] at before
      by_cases same : index = first
      · subst same
        simpa using nodup.1
      · simpa [same] using before

/-! ## Entries -/

theorem mem_entries {entry : Nat × α} :
    entry ∈ slab.entries ↔ slab.get? entry.1 = some entry.2 := by
  obtain ⟨index, content⟩ := entry
  simp only [entries, List.mem_filterMap, Prod.exists, Option.map_eq_some_iff, Prod.mk.injEq,
    List.mem_zipIdx_iff_getElem?, Array.getElem?_toList, get?, Option.join_eq_some_iff]
  constructor
  · rintro ⟨_, _, found, _, rfl, rfl, rfl⟩
    exact found
  · intro found
    exact ⟨_, _, found, _, rfl, rfl, rfl⟩

theorem nodup_entries (slab : Slab α) : slab.entries.Nodup := by
  have indices : (slab.cells.toList.zipIdx.map Prod.snd).Nodup := by
    rw [List.zipIdx_map_snd]
    exact List.nodup_range'
  refine List.Nodup.filterMap ?_ indices.of_map
  rintro ⟨first, index⟩ ⟨second, place⟩ ⟨number, content⟩ here there
  obtain ⟨_, rfl, same⟩ := Option.map_eq_some_iff.mp (Option.mem_def.mp here)
  obtain ⟨_, rfl, same'⟩ := Option.map_eq_some_iff.mp (Option.mem_def.mp there)
  simp only [Prod.mk.injEq] at same same'
  rw [same.1, same.2, same'.1, same'.2]

/-- A full cell accounts for one entry; the others are those that are left when it is vacated. -/
theorem entries_perm_erase (present : slab.get? index = some content) :
    slab.entries.Perm ((index, content) :: (slab.erase index).entries) := by
  refine (List.perm_ext_iff_of_nodup slab.nodup_entries ?_).mpr fun entry => ?_
  · refine List.nodup_cons.mpr ⟨fun member => ?_, nodup_entries _⟩
    simp [mem_entries, get?_erase] at member
  · rw [List.mem_cons, mem_entries, mem_entries, get?_erase]
    obtain ⟨place, held⟩ := entry
    by_cases same : place = index
    · subst same
      simp [present, eq_comm]
    · simp [same]

theorem entries_put (present : slab.get? index = some old) (content : α) :
    (slab.put index content).entries.Perm ((index, content) :: (slab.erase index).entries) := by
  have filled : (slab.put index content).get? index = some content := by simp [get?_put present]
  have emptied : ((slab.put index content).erase index).entries = (slab.erase index).entries := by
    simp [entries, Slab.erase, Slab.put]
  rw [← emptied]
  exact entries_perm_erase filled

theorem Sound.entries_insert (sound : slab.Sound) (content : α) :
    (slab.insert content).entries.Perm ((slab.next, content) :: slab.entries) := by
  refine (List.perm_ext_iff_of_nodup (nodup_entries _) ?_).mpr fun entry => ?_
  · refine List.nodup_cons.mpr ⟨fun member => ?_, nodup_entries _⟩
    simp [mem_entries, sound.get?_next] at member
  · rw [List.mem_cons, mem_entries, mem_entries, sound.get?_insert]
    obtain ⟨place, held⟩ := entry
    by_cases same : place = slab.next
    · subst same
      simp [sound.get?_next, eq_comm]
    · simp [same]

/-- As many cells are full as there are entries. -/
theorem occupied_eq_length (slab : Slab α) : slab.occupied = slab.entries.length := by
  rw [occupied, ← Array.countP_toList, ← List.zipIdx_map_fst 0 slab.cells.toList, List.countP_map,
    entries, List.length_filterMap_eq_countP]
  simp [Function.comp_def]

theorem occupied_put (present : slab.get? index = some old) (content : α) :
    (slab.put index content).occupied = slab.occupied := by
  rw [occupied_eq_length, occupied_eq_length, (entries_put present content).length_eq,
    (entries_perm_erase present).length_eq, List.length_cons, List.length_cons]

theorem occupied_erase (present : slab.get? index = some old) :
    slab.occupied = (slab.erase index).occupied + 1 := by
  rw [occupied_eq_length, occupied_eq_length, (entries_perm_erase present).length_eq,
    List.length_cons]

theorem Sound.occupied_insert (sound : slab.Sound) (content : α) :
    (slab.insert content).occupied = slab.occupied + 1 := by
  rw [occupied_eq_length, occupied_eq_length, (sound.entries_insert content).length_eq,
    List.length_cons]

end HeapSampler.Slab
