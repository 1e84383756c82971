import Mathlib
import HeapSampler.Proofs.Store.Balance

/-!
# Events on balanced inventories

What releases, moves, allocations and the end of a session do to the live table.  None of them
upsets the balance, and none fails on a balanced inventory but an allocation for which there is no
cell.
-/

namespace HeapSampler.Inventory

variable {inventory after : Inventory} {leaving held : List Handle} {spare : List StringId}
  {identity : Identity}

namespace Balanced

/-- Releasing strikes the identity and nothing else from the live table. -/
theorem recordRelease (balanced : inventory.Balanced leaving held spare) (identity : Identity) :
    ∃ after, inventory.recordRelease identity = .ok after ∧ after.Balanced leaving held spare ∧
      after.store.live = inventory.store.live.filter (fun entry => entry.1 ≠ identity) ∧
      inventory.Ages after spare := by
  unfold Inventory.recordRelease
  cases found : inventory.store.handle? identity with
  | none =>
      refine ⟨inventory, rfl, balanced, ?_, .refl _ _⟩
      rw [eq_comm, List.filter_eq_self]
      rintro ⟨own, handle⟩ member
      rw [decide_eq_true_eq]
      rintro rfl
      exact handle?_eq_none_iff.mp found handle member
  | some handle =>
      obtain ⟨after, released, balanced', live_eq, aged⟩ := (balanced.unlist found).releaseLive
      exact ⟨after, released, balanced', live_eq, { aged with }⟩

/-- Relocating renames a live entry and strikes the one that had the new identity before. -/
theorem recordRelocation (balanced : inventory.Balanced [] held spare) (former latter : Identity) :
    ∃ after, inventory.recordRelocation former latter = .ok after ∧
      after.Balanced [] held spare ∧ inventory.Ages after spare ∧
      after.store.live =
        if former = latter then inventory.store.live
        else match inventory.store.handle? former with
          | none => inventory.store.live
          | some handle =>
              (inventory.store.unlist former |>.unlist latter).live ++ [(latter, handle)] := by
  unfold Inventory.recordRelocation
  by_cases same : former = latter
  · exact ⟨inventory, if_pos same, balanced, .refl _ _, (if_pos same).symm⟩
  · simp only [same, if_false]
    cases found : inventory.store.handle? former with
    | none => exact ⟨inventory, rfl, balanced, .refl _ _, rfl⟩
    | some handle =>
        obtain ⟨middle, released, balanced', live_eq, aged⟩ :=
          (balanced.unlist found).recordRelease latter
        obtain ⟨old, present⟩ := balanced'.exists_sample_iff.mpr
          (show handle ∈ _ from List.mem_append_right _ (List.mem_cons_self ..))
        obtain ⟨arena, modified, reads, texts_same, places_same, balanced''⟩ :=
          balanced'.touch (·.moved latter) present rfl rfl (.inl (List.mem_cons_self ..)) rfl rfl
        have unused (other : Handle) : (latter, other) ∉ middle.store.live := by
          rw [live_eq]
          simp
        have relisted := balanced''.relist ((reads handle).trans (if_pos rfl)) rfl unused
        have renamed : middle.Ages { middle with store :=
            { middle.store with arena, live := middle.store.live ++ [(latter, handle)] } } spare :=
          .of_change present (.moved old latter) reads texts_same places_same
        exact ⟨_, by simp only [released, modified, bind, Except.bind, pure, Except.pure],
          relisted, Ages.trans { aged with } renamed, congrArg (· ++ _) live_eq⟩

theorem clear (balanced : inventory.Balanced [] held spare) :
    ∃ after, inventory.clear = .ok after ∧ after.Balanced [] held spare ∧ after.store.live = [] ∧
      inventory.Ages after spare := by
  have emptied : Balanced { inventory with store := { inventory.store with live := [] } }
      (inventory.store.live.map Prod.snd ++ []) held spare :=
    { owners := balanced.owners.congr (by simp)
      identities_nodup := .nil
      handles_nodup := balanced.handles_nodup
      identity_eq := fun member => nomatch member
      released_iff := fun reached => balanced.released_iff reached
      nameless := balanced.nameless
      unplaced := balanced.unplaced
      tables := balanced.tables }
  obtain ⟨after, released, balanced', live_eq, aged⟩ := emptied.releaseAll
  exact ⟨after, released, balanced', live_eq, { aged with }⟩

/--
An allocation first strikes what is live under its identity.  Then it is dropped if the table is
full, and becomes the last live entry if not.  Either way the references to its tags are handed
over; the others that are spare stay.
-/
theorem recordAllocation {tags : List Tag} {others : List StringId} {backtrace : Backtrace}
    {result : Except Dropped Unit} (balanced : inventory.Balanced [] held spare)
    (owned : spare.Perm (tags.flatMap Tag.texts ++ others))
    (recorded : inventory.recordAllocation identity tags backtrace = .ok (after, result)) :
    ∃ middle, middle.Balanced [] held spare ∧ inventory.Ages middle spare ∧
      middle.store.live = (inventory.store.unlist identity).live ∧
      after.Balanced [] held others ∧
      (middle.store.isFull = true ∧ result = .error {} ∧ after.store = middle.store.recordDrop ∧
          middle.tables.Keeps after.tables (others ++ middle.texts) middle.places ∨
        middle.store.isFull = false ∧ result = .ok () ∧ ∃ arena handle,
          handle ∉ middle.store.live.map Prod.snd ++ held ∧
          (∀ other, arena.get? other =
            if other = handle then some (.new identity tags backtrace)
            else middle.store.sample? other) ∧
          after = { middle with store :=
            { middle.store with arena, live := middle.store.live ++ [(identity, handle)] } }) := by
  obtain ⟨middle, released, balanced', live_eq, aged⟩ := balanced.recordRelease identity
  refine ⟨middle, balanced', aged, live_eq, ?_⟩
  simp only [Inventory.recordAllocation, released, bind, Except.bind, pure, Except.pure] at recorded
  cases full : middle.store.isFull with
  | true =>
      obtain ⟨tables, given_back, balanced'', kept⟩ := balanced'.recordDrop owned
      simp only [full, if_true, given_back, Except.ok.injEq, Prod.mk.injEq] at recorded
      obtain ⟨rfl, rfl⟩ := recorded
      exact ⟨balanced'', .inl ⟨rfl, rfl, rfl, kept⟩⟩
  | false =>
      simp only [full, Bool.false_eq_true, if_false] at recorded
      split at recorded
      · cases recorded
      · rename_i arena handle inserted
        simp only [Except.ok.injEq, Prod.mk.injEq] at recorded
        obtain ⟨rfl, rfl⟩ := recorded
        have unused (other : Handle) : (identity, other) ∉ middle.store.live := by
          rw [live_eq]
          simp
        obtain ⟨balanced'', fresh, reads⟩ := balanced'.insert owned unused inserted
        exact ⟨balanced'', .inr ⟨rfl, rfl, arena, handle, fresh, reads, rfl⟩⟩

end Balanced

end HeapSampler.Inventory
