import Mathlib
import HeapSampler.Proofs.Intern.Lifetimes

/-!
# Dense ids

An id is used again before another one is made up, and another one is made up only when all there
are stand for a key.  So a set that has been called in whatever way, with whatever ids, has given
out just the ids up to the largest number of keys that it has held at one time, and each of them
either stands for a key or is named once among those that wait to be given out again.
-/

namespace HeapSampler.InternSet

variable {κ : Type} {set after : InternSet κ} {id : Nat} {key : κ}

/-- The ids that wait to be given out again, the one vacated last in front. -/
def vacant (set : InternSet κ) : List Nat :=
  set.slab.free.map (· + 1)

/-! ## Cells -/

theorem within_of_get? {interned : Interned κ} (found : set.get? id = some interned) :
    1 ≤ id ∧ id ≤ set.slab.cells.size := by
  cases id with
  | zero => cases found
  | succ index => exact ⟨Nat.le_add_left 1 index, Slab.lt_size_of_get? found⟩

theorem length_entries_le (set : InternSet κ) : set.entries.length ≤ set.slab.cells.size :=
  set.length_entries.trans_le Array.countP_le_size

/-- Each cell is named once among the vacant ones or not at all, as it is vacant or not. -/
theorem Sound.count_vacant (sound : set.Sound) (index : Nat) :
    set.vacant.count (index + 1) =
      if index < set.slab.cells.size ∧ set.get? (index + 1) = none then 1 else 0 := by
  rw [vacant, List.count_map_of_injective _ _ (add_left_injective 1),
    sound.slab.free_nodup.count, if_congr (sound.slab.mem_free_iff index) rfl rfl]
  rfl

theorem cells_of_retain (retained : set.retain id = .ok after) :
    after.slab.cells.size = set.slab.cells.size := by
  unfold retain at retained
  split at retained
  · cases retained
  · split at retained
    · cases retained
      exact Array.size_setIfInBounds
    · cases retained

theorem cells_of_release [DecidableEq κ] {last : Option κ}
    (released : set.release id = .ok (after, last)) :
    after.slab.cells.size = set.slab.cells.size := by
  unfold release at released
  split at released
  · cases released
  · split at released
    · cases released
      exact Array.size_setIfInBounds
    · cases released
      exact Array.size_setIfInBounds

/-- What a call does to the row of the cells: it leaves its length, and gives out an id of the row
if any, or it adds a cell to a full row and gives out the id of that. -/
inductive Turns (set after : InternSet κ) (given : Option Nat) : Prop where
  | kept (cells : after.slab.cells.size = set.slab.cells.size)
      (inside : ∀ id, given = some id → 1 ≤ id ∧ id ≤ set.slab.cells.size)
  | grown (full : set.entries.length = set.slab.cells.size)
      (still_full : after.entries.length = after.slab.cells.size)
      (cells : after.slab.cells.size = set.slab.cells.size + 1)
      (fresh : given = some (set.slab.cells.size + 1))

/-- A new key takes a vacant cell as long as there is one. -/
theorem Sound.turns_of_add [DecidableEq κ] (sound : set.Sound)
    (fresh : ∀ id, set.key? id ≠ some key)
    (added : set.add key = .ok (after, id)) : set.Turns after (some id) := by
  have after_sound := (sound.gains_of_add fresh added).1.sound
  unfold add at added
  split at added
  · cases added
    cases vacant : set.slab.free with
    | nil =>
        have full := sound.slab.occupied_eq_size vacant
        have still_full := after_sound.slab.occupied_eq_size (by simp [Slab.insert, vacant])
        exact .grown ((length_entries _).trans full) ((length_entries _).trans still_full)
          (by simp [Slab.insert, vacant]) (by simp [Slab.next, vacant])
    | cons index rest =>
        have inside := ((sound.slab.mem_free_iff index).mp (vacant ▸ List.mem_cons_self)).1
        have next_eq : set.slab.next = index := by simp [Slab.next, vacant]
        refine .kept (by simp [Slab.insert, vacant]) fun id given => ?_
        rw [← Option.some.inj given, next_eq]
        exact ⟨Nat.le_add_left 1 index, inside⟩
  · cases added

/-- A key that is there keeps its id. -/
theorem Sound.turns_of_intern [DecidableEq κ] (sound : set.Sound)
    (interned : set.intern key = .ok (after, id)) : set.Turns after (some id) := by
  unfold intern at interned
  split at interned
  · rename_i place found
    obtain ⟨_, present, -⟩ := Option.map_eq_some_iff.mp (sound.find?_eq_some_iff.mp found)
    obtain ⟨reached, retained, ⟨⟩⟩ := exists_ok_of_map interned
    refine .kept (cells_of_retain retained) fun id given => ?_
    rw [← Option.some.inj given]
    exact within_of_get? present
  · rename_i absent
    exact sound.turns_of_add (sound.find?_eq_none_iff.mp absent) interned

/-! ## Calls in a row -/

section Calls

variable [DecidableEq κ]

inductive Call (κ : Type) where
  | intern (key : κ)
  | retain (id : Nat)
  | release (id : Nat)
  deriving DecidableEq

def perform (set : InternSet κ) : Call κ → Except InternError (InternSet κ × Option Nat)
  | .intern key => (set.intern key).map fun (after, id) => (after, some id)
  | .retain id => (set.retain id).map fun after => (after, none)
  | .release id => (set.release id).map fun (after, _) => (after, none)

def next (set : InternSet κ) (call : Call κ) : InternSet κ :=
  match set.perform call with
  | .ok (after, _) => after
  | .error _ => set

def issued? (set : InternSet κ) (call : Call κ) : Option Nat :=
  match set.perform call with
  | .ok (_, id) => id
  | .error _ => none

def reached : List (Call κ) → InternSet κ
  | [] => {}
  | call :: earlier => (reached earlier).next call

def issued : List (Call κ) → List Nat
  | [] => []
  | call :: earlier => ((reached earlier).issued? call).toList ++ issued earlier

/-- The largest number of keys that the set has held at one time. -/
def peak : List (Call κ) → Nat
  | [] => 0
  | call :: earlier => max (reached (call :: earlier)).entries.length (peak earlier)

theorem Sound.turns_of_ok (sound : set.Sound) {call : Call κ} {given : Option Nat}
    (went : set.perform call = .ok (after, given)) : after.Sound ∧ set.Turns after given := by
  cases call with
  | intern key =>
      obtain ⟨⟨reached, id⟩, interned, ⟨⟩⟩ := exists_ok_of_map went
      exact ⟨(sound.gains_of_intern interned).1.sound, sound.turns_of_intern interned⟩
  | retain id =>
      obtain ⟨reached, retained, ⟨⟩⟩ := exists_ok_of_map went
      exact ⟨(sound.retain retained).1, .kept (cells_of_retain retained)
        (fun _ same => nomatch same)⟩
  | release id =>
      obtain ⟨⟨reached, last⟩, released, ⟨⟩⟩ := exists_ok_of_map went
      exact ⟨(sound.release released).1, .kept (cells_of_release released)
        (fun _ same => nomatch same)⟩

theorem Sound.turns (sound : set.Sound) (call : Call κ) :
    (set.next call).Sound ∧ set.Turns (set.next call) (set.issued? call) := by
  unfold next issued?
  split
  · rename_i went
    exact sound.turns_of_ok went
  · exact ⟨sound, .kept rfl (fun _ same => nomatch same)⟩

/-- The row of the cells is as long as there have been keys at one time, and the ids of its cells
are those that have been given out. -/
theorem cells_eq_peak (calls : List (Call κ)) :
    (reached calls).Sound ∧ (reached calls).slab.cells.size = peak calls ∧
      ∀ id, id ∈ issued calls ↔ 1 ≤ id ∧ id ≤ peak calls := by
  induction calls with
  | nil => exact ⟨sound_empty, rfl, fun id => by simp [issued, peak]; omega⟩
  | cons call earlier ih =>
      obtain ⟨sound, cells_before, issued_before⟩ := ih
      obtain ⟨sound_after, turns⟩ := sound.turns call
      have within := length_entries_le (reached (call :: earlier))
      refine ⟨sound_after, ?_⟩
      cases turns with
      | kept cells inside =>
          -- No more keys than cells, and there are as many cells as before.
          have peak_eq : peak (call :: earlier) = peak earlier := by
            rw [peak, ← cells_before, ← cells]
            exact max_eq_right within
          refine ⟨by rw [peak_eq, ← cells_before]; exact cells, fun id => ?_⟩
          rw [peak_eq, issued, List.mem_append, issued_before, Option.mem_toList]
          refine ⟨?_, .inr⟩
          rintro (given | before)
          · exact cells_before ▸ inside id given
          · exact before
      | grown full still_full cells fresh =>
          -- The row is full with its new cell, so there are more keys than ever before.
          have length_eq : (reached (call :: earlier)).entries.length = peak earlier + 1 := by
            rw [← cells_before]
            exact still_full.trans cells
          have peak_eq : peak (call :: earlier) = peak earlier + 1 := by
            rw [peak, length_eq]
            exact max_eq_left (Nat.le_succ _)
          refine ⟨by rw [peak_eq, ← cells_before]; exact cells, fun id => ?_⟩
          rw [peak_eq, issued, List.mem_append, issued_before, Option.mem_toList, fresh,
            cells_before, Option.some.injEq]
          omega

/-- Each id up to the top stands for a key or is vacant, once and not both, and no other id does. -/
structure Dense (set : InternSet κ) (top : Nat) : Prop where
  once : ∀ id, 1 ≤ id → id ≤ top →
    (set.get? id).isSome ∧ set.vacant.count id = 0 ∨ set.get? id = none ∧ set.vacant.count id = 1
  within : ∀ id, (set.get? id).isSome ∨ id ∈ set.vacant → 1 ≤ id ∧ id ≤ top
  /-- An id above the top is given out only when every id up to the top stands for a key. -/
  grows : ∀ {key : κ} {after : InternSet κ} {id : Nat},
    set.intern key = .ok (after, id) → top < id → set.entries.length = top

theorem Sound.dense (sound : set.Sound) : set.Dense set.slab.cells.size where
  once id positive inside := by
    obtain ⟨index, rfl⟩ := Nat.exists_eq_add_of_le' positive
    rw [sound.count_vacant]
    cases found : set.get? (index + 1) with
    | some interned => simp
    | none => simp [Nat.lt_of_succ_le inside]
  within id := by
    rintro (live | member)
    · obtain ⟨interned, found⟩ := Option.isSome_iff_exists.mp live
      exact within_of_get? found
    · obtain ⟨index, free, rfl⟩ := List.mem_map.mp member
      exact ⟨Nat.le_add_left 1 index, ((sound.slab.mem_free_iff index).mp free).1⟩
  grows interned above := by
    cases sound.turns_of_intern interned with
    | kept cells inside => exact absurd (inside _ rfl).2 (Nat.not_le.mpr above)
    | grown full still_full cells fresh => exact full

/-- Whatever has been called, with whatever ids, the ids that have been given out are those up to
the largest number of keys held at one time, and these are dense. -/
theorem dense_of_calls (calls : List (Call κ)) :
    (∀ id, id ∈ issued calls ↔ 1 ≤ id ∧ id ≤ peak calls) ∧ (reached calls).Dense (peak calls) := by
  obtain ⟨sound, cells, issued_iff⟩ := cells_eq_peak calls
  exact ⟨issued_iff, cells ▸ sound.dense⟩

end Calls

/-- The first id is given back and given out again, so two keys at one time need no third id. -/
example :
    let calls : List (Call String) :=
      [.intern "c", .release 1, .release 7, .intern "b", .intern "a"]
    issued calls = [1, 2, 1] ∧ peak calls = 2 ∧ (reached calls).vacant = [] ∧
      (reached (calls.drop 1)).vacant = [1] := by
  decide +kernel

end HeapSampler.InternSet
