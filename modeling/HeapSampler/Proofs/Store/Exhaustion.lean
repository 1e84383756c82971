import Mathlib
import HeapSampler.Proofs.Intern.Exhaustion
import HeapSampler.Proofs.Store.Events

/-!
# What the store can run out of

A snapshot needs another owner of each live sample and an allocation needs a cell.  On balanced
books there is nothing else that either of them can want.
-/

namespace HeapSampler

def Breach.IsExhaustion : Breach → Prop
  | interning cause => cause.IsExhaustion
  | arenaFull => True
  | staleHandle _ | missingSample _ => False

namespace Inventory.Balanced

variable {inventory : Inventory} {leaving held handles : List Handle} {spare : List StringId}
  {handle : Handle}

/-- A sample gets another owner until it has the largest number of them. -/
theorem exists_retained (balanced : inventory.Balanced leaving held spare)
    (owned : handle ∈ inventory.store.live.map Prod.snd ++ (leaving ++ held))
    (few : (inventory.store.live.map Prod.snd ++ (leaving ++ held)).count handle < Arena.maxWord) :
    ∃ store, inventory.store.retain handle = .ok store := by
  obtain ⟨content, found⟩ := balanced.owners.exists_owned owned
  rw [← balanced.owners.count_eq found] at few
  exact ⟨_, by simp [Store.retain, Arena.retain?, found, few]; rfl⟩

theorem exists_retainedAll (balanced : inventory.Balanced leaving held spare)
    (live : handles ⊆ inventory.store.live.map Prod.snd)
    (few : ∀ handle, handles.count handle +
      (inventory.store.live.map Prod.snd ++ (leaving ++ held)).count handle ≤ Arena.maxWord) :
    ∃ store, handles.foldlM Store.retain inventory.store = .ok store := by
  induction handles generalizing inventory held with
  | nil => exact ⟨inventory.store, rfl⟩
  | cons handle rest ih =>
      obtain ⟨listed, others⟩ := List.cons_subset.mp live
      have room := few handle
      rw [List.count_cons_self] at room
      obtain ⟨middle, retained⟩ :=
        balanced.exists_retained (List.mem_append_left _ listed) (by omega)
      obtain ⟨balanced', arena, rfl, -⟩ := balanced.retain retained
      obtain ⟨store, retained'⟩ := ih balanced' others fun other => by
        have bound := few other
        simp only [List.count_cons, List.count_append] at bound ⊢
        omega
      refine ⟨store, ?_⟩
      simp only [List.foldlM_cons, retained, bind, Except.bind]
      exact retained'

/-- A live sample has the live table and the snapshots as owners, so another snapshot fits in. -/
theorem exists_snapshot (balanced : inventory.Balanced [] held spare)
    (few : ∀ handle, held.count handle + 2 ≤ Arena.maxWord) :
    ∃ store, inventory.store.snapshot = .ok (inventory.store.live.map Prod.snd, store) := by
  have nodup := balanced.handles_nodup
  rw [List.append_nil] at nodup
  obtain ⟨store, retained⟩ := balanced.exists_retainedAll (List.Subset.refl _) fun handle => by
    have once := List.nodup_iff_count_le_one.mp nodup handle
    have bound := few handle
    rw [List.count_append, List.count_append, List.count_nil]
    omega
  exact ⟨store, by simp only [Store.snapshot, retained, bind, Except.bind, pure, Except.pure]⟩

/-- All that an allocation can want is a cell. -/
theorem exhausted_of_allocation {tags : List Tag} {others : List StringId} {identity : Identity}
    {backtrace : Backtrace} {breach : Breach} (balanced : inventory.Balanced [] held spare)
    (owned : spare.Perm (tags.flatMap Tag.texts ++ others))
    (failed : inventory.recordAllocation identity tags backtrace = .error breach) :
    breach.IsExhaustion := by
  obtain ⟨middle, released, balanced', -, -⟩ := balanced.recordRelease identity
  simp only [Inventory.recordAllocation, released, bind, Except.bind, pure, Except.pure] at failed
  split at failed
  · obtain ⟨tables, given_back, -, -⟩ := balanced'.recordDrop owned
    rw [given_back] at failed
    cases failed
  · split at failed
    · cases failed
      trivial
    · cases failed

end Inventory.Balanced

end HeapSampler
