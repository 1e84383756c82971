import Mathlib
import HeapSampler.Intern.Set
import HeapSampler.Proofs.Intern.Cells

/-!
# References to interned keys

Seen from outside, a set of interned keys gives each id a key and a number of references.  Taking a
reference and giving one back change the number of that id by one and no other number; the key of an
id stays the same for as long as the id has references.
-/

namespace HeapSampler.InternSet

variable {κ : Type} {set after : InternSet κ} {id other : Nat} {key : κ} {old : Interned κ}

def key? (set : InternSet κ) (id : Nat) : Option κ :=
  (set.get? id).map (·.key)

/-- The cells, the free list, the counts and the index agree. -/
structure Sound (set : InternSet κ) : Prop where
  /-- The free list has the vacant cells, once each. -/
  slab : set.slab.Sound
  /-- The index has the key of each id that is interned, and nothing else. -/
  indexed : ∀ {key : κ} {id : Nat}, (key, id) ∈ set.index.entries ↔ set.key? id = some key
  count_pos : ∀ {id : Nat} {interned : Interned κ}, set.get? id = some interned → 0 < interned.count
  size_le : set.slab.cells.size ≤ maxWord

/-- How many references an id has: none if it is not interned. -/
def references (set : InternSet κ) (id : Nat) : Nat :=
  ((set.get? id).map (·.count)).getD 0

def keys (set : InternSet κ) : List κ :=
  set.entries.map fun entry => entry.2.key

theorem sound_empty : ({} : InternSet κ).Sound where
  slab := Slab.sound_empty
  indexed {_ id} := by cases id <;> simp [key?, get?]
  count_pos {id _} found := by cases id <;> simp [get?] at found
  size_le := Nat.zero_le _

/-- The ids fit the words that they are kept in. -/
theorem Sound.id_le (sound : set.Sound) {interned : Interned κ}
    (found : set.get? id = some interned) :
    id ≤ maxWord := by
  cases id with
  | zero => exact Nat.zero_le _
  | succ index =>
      have cell : set.slab.cells[index]? = some (some interned) := Option.join_eq_some_iff.mp found
      have inside := (Array.getElem?_eq_some_iff.mp cell).1
      have fewer := sound.size_le
      omega

@[simp]
theorem get?_zero (set : InternSet κ) : set.get? 0 = none := rfl

theorem references_empty (id : Nat) : ({} : InternSet κ).references id = 0 := by
  cases id <;> simp [references, get?]

theorem keys_eq (set : InternSet κ) :
    set.keys = set.slab.entries.map fun entry => entry.2.key := by
  simp [keys, entries, List.map_map, Function.comp_def]

theorem Sound.references_pos_iff (sound : set.Sound) :
    0 < set.references id ↔ ∃ interned, set.get? id = some interned := by
  cases found : set.get? id with
  | none => simp [references, found]
  | some interned => simpa [references, found] using sound.count_pos found

theorem Sound.key?_isSome_iff (sound : set.Sound) :
    (set.key? id).isSome ↔ 0 < set.references id := by
  rw [sound.references_pos_iff, key?, Option.isSome_map, Option.isSome_iff_exists]

theorem mem_keys : key ∈ set.keys ↔ ∃ id, set.key? id = some key := by
  rw [keys_eq, List.mem_map]
  constructor
  · rintro ⟨⟨index, interned⟩, member, rfl⟩
    have found : set.get? (index + 1) = some interned := Slab.mem_entries.mp member
    exact ⟨index + 1, by rw [key?, found]; rfl⟩
  · rintro ⟨id, held⟩
    obtain ⟨interned, found, rfl⟩ := Option.map_eq_some_iff.mp held
    cases id with
    | zero => cases found
    | succ index => exact ⟨(index, interned), Slab.mem_entries.mpr found, rfl⟩

/-- The index has one id for a key, so no key has two. -/
theorem Sound.id_unique (sound : set.Sound) {first second : Nat} {one two : Interned κ}
    (here : set.get? first = some one) (there : set.get? second = some two)
    (same : one.key = two.key) : first = second := by
  have one_listed : (one.key, first) ∈ set.index.entries :=
    sound.indexed.mpr (by rw [key?, here, Option.map_some])
  have two_listed : (one.key, second) ∈ set.index.entries :=
    sound.indexed.mpr (by rw [key?, there, Option.map_some, same])
  exact congrArg Prod.snd (List.inj_on_of_nodup_map set.index.distinct one_listed two_listed rfl)

theorem Sound.keys_nodup (sound : set.Sound) : set.keys.Nodup := by
  rw [keys_eq]
  refine List.Nodup.map_on ?_ set.slab.nodup_entries
  rintro ⟨first, one⟩ here ⟨second, two⟩ there same
  have one_found : set.get? (first + 1) = some one := Slab.mem_entries.mp here
  have two_found : set.get? (second + 1) = some two := Slab.mem_entries.mp there
  cases Nat.succ.inj (sound.id_unique one_found two_found same)
  rw [one_found] at two_found
  cases two_found
  rfl

/-- The index is as long as the list of the keys in the cells. -/
theorem Sound.size_eq_length (sound : set.Sound) : set.size = set.keys.length := by
  have same : (set.index.entries.map Prod.fst).Perm set.keys := by
    refine (List.perm_ext_iff_of_nodup set.index.distinct sound.keys_nodup).mpr fun key => ?_
    simp [mem_keys, sound.indexed]
  rw [size, Index.size, ← same.length_eq, List.length_map]

theorem length_entries (set : InternSet κ) : set.entries.length = set.slab.occupied := by
  rw [entries, List.length_map, Slab.occupied_eq_length]

theorem Sound.size_eq_occupied (sound : set.Sound) : set.size = set.slab.occupied := by
  rw [sound.size_eq_length, keys, List.length_map, length_entries]

theorem Sound.keys_eq_nil (sound : set.Sound) (idle : ∀ id, set.references id = 0) :
    set.keys = [] := by
  rw [keys_eq, List.map_eq_nil_iff, List.eq_nil_iff_forall_not_mem]
  rintro ⟨index, interned⟩ member
  have found : set.get? (index + 1) = some interned := Slab.mem_entries.mp member
  have positive := sound.references_pos_iff.mpr ⟨interned, found⟩
  rw [idle] at positive
  exact Nat.lt_irrefl 0 positive

/-! ## Single cells -/

theorem get?_replace (present : set.get? id = some old) (interned : Interned κ) (other : Nat) :
    get? { set with slab := set.slab.put (id - 1) interned } other =
      if other = id then some interned else set.get? other := by
  cases id with
  | zero => simp at present
  | succ index =>
      cases other with
      | zero => simp
      | succ place => simpa [get?] using Slab.get?_put present interned place

theorem get?_vacate (present : set.get? id = some old) (index : Index κ) (other : Nat) :
    get? { slab := set.slab.erase (id - 1), index } other =
      if other = id then none else set.get? other := by
  cases id with
  | zero => simp at present
  | succ index =>
      cases other with
      | zero => simp
      | succ place => simpa [get?] using Slab.get?_erase set.slab index place

theorem Sound.get?_fill (sound : set.Sound) (interned : Interned κ) (index : Index κ)
    (other : Nat) : get? { slab := set.slab.insert interned, index } other =
      if other = set.slab.next + 1 then some interned else set.get? other := by
  cases other with
  | zero => simp
  | succ place => simpa [get?] using sound.slab.get?_insert interned place

theorem key?_vacate (present : set.get? id = some old) (index : Index κ) (other : Nat) :
    key? { slab := set.slab.erase (id - 1), index } other =
      if other = id then none else set.key? other := by
  rw [key?, get?_vacate present]
  split <;> rfl

theorem Sound.key?_fill (sound : set.Sound) (interned : Interned κ) (index : Index κ)
    (other : Nat) : key? { slab := set.slab.insert interned, index } other =
      if other = set.slab.next + 1 then some interned.key else set.key? other := by
  rw [key?, sound.get?_fill]
  split <;> rfl

theorem keys_replace (present : set.get? id = some old) (count : Nat) :
    (keys { set with slab := set.slab.put (id - 1) { old with count } }).Perm set.keys := by
  cases id with
  | zero => simp at present
  | succ index =>
      simp only [keys_eq, Nat.add_sub_cancel]
      have before := (Slab.entries_perm_erase present).map fun entry => entry.2.key
      have now := (Slab.entries_put present { old with count }).map fun entry => entry.2.key
      exact now.trans before.symm

theorem keys_vacate (present : set.get? id = some old) (index : Index κ) :
    set.keys.Perm (old.key :: keys { slab := set.slab.erase (id - 1), index }) := by
  cases id with
  | zero => simp at present
  | succ index =>
      simp only [keys_eq, Nat.add_sub_cancel]
      exact (Slab.entries_perm_erase present).map fun entry => entry.2.key

theorem Sound.keys_fill (sound : set.Sound) (interned : Interned κ) (index : Index κ) :
    (keys { slab := set.slab.insert interned, index }).Perm (interned.key :: set.keys) := by
  simp only [keys_eq]
  exact (sound.slab.entries_insert interned).map fun entry => entry.2.key

theorem Sound.replace (sound : set.Sound) (present : set.get? id = some old) {count : Nat}
    (positive : 0 < count) :
    Sound { set with slab := set.slab.put (id - 1) { old with count } } where
  slab := by
    cases id with
    | zero => simp at present
    | succ index => exact sound.slab.put present _
  indexed {key place} := by
    rw [sound.indexed, key?, key?, get?_replace present]
    split
    · rename_i same
      rw [same, present, Option.map_some, Option.map_some]
    · rfl
  count_pos {place interned} found := by
    rw [get?_replace present] at found
    split at found
    · simp only [Option.some.injEq] at found
      exact found ▸ positive
    · exact sound.count_pos found
  size_le := by simpa [Slab.put] using sound.size_le

theorem Sound.vacate [DecidableEq κ] (sound : set.Sound) (present : set.get? id = some old) :
    Sound { slab := set.slab.erase (id - 1), index := set.index.erase old.key } where
  slab := by
    cases id with
    | zero => simp at present
    | succ index => exact sound.slab.erase present
  indexed {key place} := by
    rw [Index.mem_erase, sound.indexed, key?_vacate present]
    have own : set.key? id = some old.key := by rw [key?, present, Option.map_some]
    constructor
    · rintro ⟨held, apart⟩
      rw [if_neg, held]
      rintro rfl
      exact apart (Option.some.inj (held.symm.trans own))
    · intro held
      split at held
      · cases held
      · rename_i elsewhere
        refine ⟨held, fun same => elsewhere ?_⟩
        obtain ⟨other, found, key_eq⟩ := Option.map_eq_some_iff.mp held
        exact sound.id_unique found present (key_eq.trans same)
  count_pos {place interned} found := by
    rw [get?_vacate present] at found
    split at found
    · simp at found
    · exact sound.count_pos found
  size_le := by simpa [Slab.erase] using sound.size_le

theorem Sound.fill [DecidableEq κ] (sound : set.Sound) (room : set.slab.next < maxWord)
    (fresh : ∀ id, set.key? id ≠ some key) :
    Sound { slab := set.slab.insert { key, count := 1 }
            index := set.index.insert key (set.slab.next + 1) } where
  slab := sound.slab.insert _
  indexed {own place} := by
    have vacant : set.key? (set.slab.next + 1) = none :=
      congrArg (Option.map _) sound.slab.get?_next
    rw [Index.mem_insert, sound.indexed, Prod.mk.injEq, sound.key?_fill]
    split
    · rename_i same
      rw [same, vacant]
      simp [eq_comm]
    · rename_i apart
      refine ⟨fun listed => ?_, fun held => .inr ⟨held, ?_⟩⟩
      · exact (listed.resolve_left fun both => apart both.2).1
      · rintro rfl
        exact fresh place held
  count_pos {place interned} found := by
    rw [sound.get?_fill] at found
    split at found
    · cases Option.some.inj found
      exact Nat.one_pos
    · exact sound.count_pos found
  size_le := by
    cases vacant : set.slab.free with
    | nil =>
        simp only [Slab.next, vacant, List.head?_nil, Option.getD_none] at room
        simpa [Slab.insert, vacant] using room
    | cons => simpa [Slab.insert, vacant] using sound.size_le

/-! ## Taking a reference -/

/-- `after` has one reference more than `before`: to `id`, which has the key `key`. -/
structure Gains (before after : InternSet κ) (id : Nat) (key : κ) : Prop where
  sound : after.Sound
  key?_self : after.key? id = some key
  key?_keeps : ∀ {other : Nat} {found : κ},
    before.key? other = some found → after.key? other = some found
  references_eq : ∀ other, after.references other =
    before.references other + if other = id then 1 else 0

theorem Sound.gains_of_retain (sound : set.Sound) (held : set.key? id = some key)
    (retained : set.retain id = .ok after) :
    set.Gains after id key ∧ after.keys.Perm set.keys := by
  obtain ⟨interned, present, rfl⟩ := Option.map_eq_some_iff.mp held
  simp only [retain, present] at retained
  split at retained
  · cases retained
    refine ⟨⟨sound.replace present (Nat.succ_pos _), ?_, fun {other found} kept => ?_,
      fun other => ?_⟩, keys_replace present _⟩
    · simp [key?, get?_replace present]
    · rw [key?, get?_replace present]
      split
      · rename_i same
        rw [same, held] at kept
        simpa using kept
      · exact kept
    · rw [references, references, get?_replace present]
      by_cases same : other = id
      · simp [same, present]
      · simp [same]
  · cases retained

theorem Sound.gains_of_add [DecidableEq κ] (sound : set.Sound)
    (fresh : ∀ id, set.key? id ≠ some key)
    (added : set.add key = .ok (after, id)) :
    set.Gains after id key ∧ after.keys.Perm (key :: set.keys) ∧ set.references id = 0 := by
  unfold add at added
  split at added
  · rename_i room
    simp only [Except.ok.injEq, Prod.mk.injEq] at added
    obtain ⟨rfl, rfl⟩ := added
    have vacant : set.get? (set.slab.next + 1) = none := sound.slab.get?_next
    refine ⟨⟨sound.fill room fresh, ?_, fun {other found} kept => ?_, fun other => ?_⟩,
      sound.keys_fill _ _, by simp [references, vacant]⟩
    · rw [sound.key?_fill, if_pos rfl]
    · rw [sound.key?_fill]
      split
      · rename_i same
        simp [key?, same, vacant] at kept
      · exact kept
    · rw [references, references, sound.get?_fill]
      by_cases same : other = set.slab.next + 1
      · simp [same, vacant]
      · simp [same]
  · cases added

section Finding

variable [DecidableEq κ]

theorem Sound.find?_eq_some_iff (sound : set.Sound) :
    set.find? key = some id ↔ set.key? id = some key :=
  Index.get?_eq_some_iff.trans sound.indexed

theorem Sound.find?_eq_none_iff (sound : set.Sound) :
    set.find? key = none ↔ ∀ id, set.key? id ≠ some key := by
  rw [Option.eq_none_iff_forall_ne_some]
  exact forall_congr' fun id => not_congr sound.find?_eq_some_iff

/-- A key that is there keeps its id, and the keys stay the same; a new one is added to them. -/
theorem Sound.gains_of_intern (sound : set.Sound) (interned : set.intern key = .ok (after, id)) :
    set.Gains after id key ∧
      (set.find? key = some id ∧ after.keys.Perm set.keys ∨
        set.find? key = none ∧ after.keys.Perm (key :: set.keys)) := by
  unfold intern at interned
  split at interned
  · rename_i place found
    cases retained : set.retain place with
    | error cause => simp [retained, Except.map] at interned
    | ok result =>
        simp only [retained, Except.map, Except.ok.injEq, Prod.mk.injEq] at interned
        obtain ⟨rfl, rfl⟩ := interned
        obtain ⟨gains, same⟩ := sound.gains_of_retain (sound.find?_eq_some_iff.mp found) retained
        exact ⟨gains, .inl ⟨found, same⟩⟩
  · rename_i absent
    obtain ⟨gains, more, _⟩ := sound.gains_of_add (sound.find?_eq_none_iff.mp absent) interned
    exact ⟨gains, .inr ⟨absent, more⟩⟩

end Finding

/-! ## Giving a reference back -/

/-- `after` has one reference fewer than `before`: to `id`. -/
structure Loses (before after : InternSet κ) (id : Nat) : Prop where
  sound : after.Sound
  references_eq : ∀ other, before.references other =
    after.references other + if other = id then 1 else 0
  key?_eq : ∀ {other : Nat}, 0 < after.references other → after.key? other = before.key? other

/-- The key goes with the last reference and not before. -/
theorem Sound.loses_of_release [DecidableEq κ] (sound : set.Sound)
    (referred : 0 < set.references id) :
    ∃ after last, set.release id = .ok (after, last) ∧ set.Loses after id ∧
      match last with
      | none => after.keys.Perm set.keys
      | some key => set.keys.Perm (key :: after.keys) ∧ set.key? id = some key := by
  obtain ⟨interned, present⟩ := sound.references_pos_iff.mp referred
  have positive := sound.count_pos present
  by_cases several : 1 < interned.count
  · refine ⟨
      { set with slab := set.slab.put (id - 1) { interned with count := interned.count - 1 } },
      none, by simp [release, present, several], ⟨?_, fun other => ?_, ?_⟩, keys_replace present _⟩
    · exact sound.replace present (by omega)
    · rw [references, references, get?_replace present]
      by_cases same : other = id
      · simp only [same, present, Option.map_some, Option.getD_some, if_true]
        omega
      · simp [same]
    · intro other _
      rw [key?, key?, get?_replace present]
      split
      · rename_i same
        simp [same, present]
      · rfl
  · have went : set.release id = .ok ({ slab := set.slab.erase (id - 1)
                                        index := set.index.erase interned.key },
        some interned.key) := by
      simp [release, present, several]
    refine ⟨_, _, went, ⟨sound.vacate present, fun other => ?_, ?_⟩, keys_vacate present _,
      by simp [key?, present]⟩
    · rw [references, references, get?_vacate present]
      by_cases same : other = id
      · simp only [same, present, Option.map_some, Option.getD_some, if_true]
        simp
        omega
      · simp [same]
    · intro other left
      rw [references, get?_vacate present] at left
      rw [key?_vacate present]
      split
      · simp_all
      · rfl

end HeapSampler.InternSet
