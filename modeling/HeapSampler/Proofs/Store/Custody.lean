import Mathlib
import HeapSampler.Proofs.Store.Exhaustion
import HeapSampler.Proofs.Store.Preserves

/-!
# Any number of snapshots

Callers may hold several snapshots at once and give them back in any order, each of them once.
Whatever they call in between, the live table, the samples and their owners agree, and the handles
of a snapshot lead to the samples they led to when it was taken.
-/

namespace HeapSampler

structure Loan where
  handles : List Handle
  /-- The samples as they were when the snapshot was taken. -/
  samples : List Sample
  /-- The handles that samples were given since then. -/
  issued : List Handle := []
  deriving DecidableEq

/-- An inventory and what its callers have in hand. -/
structure Custody where
  inventory : Inventory
  loans : List Loan := []
  /-- The references to strings that callers own. -/
  owned : List StringId := []

namespace Custody

inductive Call where
  | intern (text : String)
  | discard (id : StringId)
  | allocate (identity : Identity) (tags : List Tag) (backtrace : Backtrace)
  | drop
  | release (identity : Identity)
  | relocate (former latter : Identity)
  | snapshot
  /-- The handles of a snapshot may come back in another order than they went out. -/
  | giveBack (loan : Loan) (handles : List Handle)
  | clear
  | setMaxSamples (count : Nat)
  | takeDropped
  | restoreDropped (count : Nat)
  /-- The live table may list its entries in another order at any time. -/
  | rehash (live : List (Identity × Handle))

def opened (maxSamples : Nat) : Custody := { inventory := { store := { maxSamples } } }

def withInventory (custody : Custody) (inventory : Inventory) : Custody :=
  { custody with inventory }

def withStore (custody : Custody) (store : Store) : Custody :=
  custody.withInventory { custody.inventory with store }

/-- Interning is the only call that fails without consequences. -/
def interned (custody : Custody) (text : String) : Custody :=
  match custody.inventory.tables.strings.intern text with
  | .error _ => custody
  | .ok (strings, id) =>
      { custody with
        inventory := { custody.inventory with
          tables := { custody.inventory.tables with strings } }
        owned := id :: custody.owned }

def perform (custody : Custody) : Call → Except Breach Custody
  | .intern text => .ok (custody.interned text)
  | .discard id =>
      (Inventory.releaseString custody.inventory.tables id).map fun tables =>
        { custody with
          inventory := { custody.inventory with tables }
          owned := custody.owned.erase id }
  | .allocate identity tags backtrace =>
      (custody.inventory.recordAllocation identity tags backtrace).map fun (inventory, _) =>
        { inventory
          loans := custody.loans.map fun loan =>
            { loan with issued := loan.issued ++ (inventory.store.handle? identity).toList }
          owned := custody.owned.diff (tags.flatMap Tag.texts) }
  | .drop => .ok (custody.withStore custody.inventory.store.recordDrop)
  | .release identity =>
      (custody.inventory.recordRelease identity).map custody.withInventory
  | .relocate former latter =>
      (custody.inventory.recordRelocation former latter).map custody.withInventory
  | .snapshot =>
      custody.inventory.store.snapshot.map fun (handles, store) =>
        { custody.withStore store with
          loans := ⟨handles, handles.filterMap store.sample?, []⟩ :: custody.loans }
  | .giveBack loan handles =>
      (custody.inventory.releaseSnapshot handles).map fun inventory =>
        { custody.withInventory inventory with loans := custody.loans.erase loan }
  | .clear => custody.inventory.clear.map custody.withInventory
  | .setMaxSamples count => .ok (custody.withStore (custody.inventory.store.setMaxSamples count))
  | .takeDropped => .ok (custody.withStore custody.inventory.store.takeDropped.2)
  | .restoreDropped count =>
      .ok (custody.withStore (custody.inventory.store.restoreDropped count))
  | .rehash live => .ok (custody.withStore { custody.inventory.store with live })

/-- Callers hand over what is theirs, and each snapshot once. -/
def Permits (custody : Custody) : Call → Prop
  | .discard id => id ∈ custody.owned
  | .allocate _ tags _ => (tags.flatMap Tag.texts).Subperm custody.owned
  | .giveBack loan handles => loan ∈ custody.loans ∧ handles.Perm loan.handles
  | .rehash live => custody.inventory.store.live.Perm live
  | _ => True

instance (custody : Custody) : DecidablePred custody.Permits := fun call => by
  cases call <;> unfold Permits <;> infer_instance

inductive Reachable (maxSamples : Nat) : Custody → Prop
  | opened : Reachable maxSamples (opened maxSamples)
  | called {custody after : Custody} {call : Call} :
      Reachable maxSamples custody → custody.Permits call → custody.perform call = .ok after →
        Reachable maxSamples after

def held (custody : Custody) : List Handle := custody.loans.flatMap Loan.handles

def live (custody : Custody) : List Handle := custody.inventory.store.live.map Prod.snd

def attempt (custody : Custody) (call : Call) : Option Custody :=
  if custody.Permits call then (custody.perform call).toOption else none

/-- There is no room for another sample, or for another owner of one that all snapshots have. -/
def Exhausts (custody : Custody) (breach : Breach) : Prop :=
  breach.IsExhaustion ∨ Arena.maxWord < custody.loans.length + 2

end Custody

variable {custody : Custody} {before inventory : Inventory} {loan : Loan}
  {maxSamples : Nat} {handle : Handle}

/-- A snapshot has each sample once, and has the samples that it was taken of. -/
structure Loan.Holds (loan : Loan) (inventory : Inventory) : Prop where
  handles_nodup : loan.handles.Nodup
  unissued : loan.handles.Disjoint loan.issued
  resolves : List.Forall₂
    (fun handle found =>
      ∃ sample, inventory.store.sample? handle = some sample ∧ found.Ages sample)
    loan.handles loan.samples

/-- Handles lead to the samples they led to, however these have aged. -/
def Inventory.Hands (before inventory : Inventory) (handles : List Handle) : Prop :=
  ∀ handle ∈ handles, ∃ old sample, before.store.sample? handle = some old ∧
    inventory.store.sample? handle = some sample ∧ old.Ages sample

theorem Inventory.Balanced.hands {leaving held : List Handle} {spare : List StringId}
    (balanced : inventory.Balanced leaving held spare) (aged : before.Ages inventory spare) :
    before.Hands inventory held := fun handle owned =>
  balanced.exists_aged aged handle (List.mem_append_right _ (List.mem_append_right _ owned))

theorem Inventory.Balanced.hands_of_eq {leaving held : List Handle} {spare : List StringId}
    (balanced : before.Balanced leaving held spare)
    (same : ∀ handle, inventory.store.sample? handle = before.store.sample? handle) :
    before.Hands inventory held := by
  intro handle owned
  obtain ⟨sample, found⟩ := balanced.exists_sample_iff.mpr
    (List.mem_append_right _ (List.mem_append_right _ owned))
  exact ⟨sample, sample, found, (same handle).trans found, .refl sample⟩

/-- What an allocation does to those who hold samples: nothing, and a fresh sample is not theirs. -/
theorem Inventory.Balanced.hands_of_recordAllocation {held : List Handle}
    {spare others : List StringId} {identity : Identity} {tags : List Tag} {backtrace : Backtrace}
    {result : Except Dropped Unit} (balanced : before.Balanced [] held spare)
    (owned : spare.Perm (tags.flatMap Tag.texts ++ others))
    (recorded : before.recordAllocation identity tags backtrace = .ok (inventory, result)) :
    before.Hands inventory held ∧
      ∀ handle, inventory.store.handle? identity = some handle → handle ∉ held := by
  obtain ⟨middle, balanced', aged, live_eq, balanced'', outcome⟩ :=
    balanced.recordAllocation owned recorded
  have hands := balanced'.hands aged
  rcases outcome with ⟨-, -, store_eq, -⟩ | ⟨-, -, arena, fresh, unowned, reads, rfl⟩
  · refine ⟨?_, fun handle issued => ?_⟩
    · intro handle listed
      obtain ⟨old, sample, found, now, ages⟩ := hands handle listed
      refine ⟨old, sample, found, ?_, ages⟩
      rw [store_eq]
      exact now
    · have struck := balanced''.handle?_eq_some_iff.mp issued
      rw [store_eq, show middle.store.recordDrop.live = middle.store.live from rfl, live_eq]
        at struck
      simp [Store.unlist] at struck
  · refine ⟨fun handle listed => ?_, fun handle issued listed => ?_⟩
    · have apart : handle ≠ fresh := by
        rintro rfl
        exact unowned (List.mem_append_right _ listed)
      obtain ⟨old, sample, found, now, ages⟩ := hands handle listed
      exact ⟨old, sample, found, ((reads handle).trans (if_neg apart)).trans now, ages⟩
    · have last := balanced''.handle?_eq_some_iff.mpr (List.mem_append_right _ List.mem_cons_self)
      cases last.symm.trans issued
      exact unowned (List.mem_append_right _ listed)

theorem Loan.Holds.aged (holds : loan.Holds before) (hands : before.Hands inventory loan.handles) :
    loan.Holds inventory where
  handles_nodup := holds.handles_nodup
  unissued := holds.unissued
  resolves := by
    have both := (List.forall₂_and_left _ _).mpr ⟨hands, holds.resolves⟩
    refine both.imp fun handle found ⟨⟨old, sample, before_found, now, aged⟩, same⟩ => ?_
    obtain ⟨middle, middle_found, sooner⟩ := same
    cases before_found.symm.trans middle_found
    exact ⟨sample, now, sooner.trans aged⟩

/-- Samples that are there can be lent. -/
theorem Loan.resolves_of_found {handles : List Handle} {store : Store}
    (found : ∀ handle ∈ handles, ∃ sample, store.sample? handle = some sample) :
    List.Forall₂
      (fun handle found => ∃ sample, store.sample? handle = some sample ∧ found.Ages sample)
      handles (handles.filterMap store.sample?) := by
  induction handles with
  | nil => exact .nil
  | cons handle rest ih =>
      obtain ⟨sample, first⟩ := found handle List.mem_cons_self
      rw [List.filterMap_cons_some first]
      exact .cons ⟨sample, first, .refl sample⟩
        (ih fun other listed => found other (List.mem_cons_of_mem _ listed))

/-- A handle counts once for each snapshot that has it. -/
theorem Loan.count_handles_eq {loans : List Loan}
    (nodup : ∀ loan ∈ loans, loan.handles.Nodup) :
    (loans.flatMap Loan.handles).count handle = loans.countP fun loan => handle ∈ loan.handles := by
  induction loans with
  | nil => rfl
  | cons loan rest ih =>
      rw [List.flatMap_cons, List.count_append, List.countP_cons,
        (nodup loan List.mem_cons_self).count,
        ih fun other listed => nodup other (List.mem_cons_of_mem _ listed), Nat.add_comm]
      simp only [decide_eq_true_eq]

namespace Custody

structure Kept (custody : Custody) : Prop where
  balanced : custody.inventory.Balanced [] custody.held custody.owned
  holds : ∀ loan ∈ custody.loans, loan.Holds custody.inventory

theorem kept_opened (maxSamples : Nat) : (opened maxSamples).Kept where
  balanced := Inventory.balanced_empty maxSamples
  holds _ listed := nomatch listed

namespace Kept

theorem loan_subset (listed : loan ∈ custody.loans) : loan.handles ⊆ custody.held :=
  fun _ member => List.mem_flatMap.mpr ⟨loan, listed, member⟩

theorem count_held_eq (kept : custody.Kept) (handle : Handle) :
    custody.held.count handle = custody.loans.countP fun loan => handle ∈ loan.handles := by
  refine Loan.count_handles_eq fun loan listed => (kept.holds loan listed).handles_nodup

theorem count_held_le (kept : custody.Kept) (handle : Handle) :
    custody.held.count handle ≤ custody.loans.length := by
  rw [kept.count_held_eq]
  exact List.countP_le_length

theorem carry (kept : custody.Kept) {owned : List StringId}
    (balanced : inventory.Balanced [] custody.held owned)
    (hands : custody.inventory.Hands inventory custody.held) :
    Kept { custody with inventory, owned } where
  balanced := balanced
  holds loan listed := (kept.holds loan listed).aged fun handle member =>
    hands handle (loan_subset listed member)

/-- A call that touches no sample, and at most the order of the live table. -/
theorem recount (kept : custody.Kept) {store : Store}
    (arena_eq : store.arena = custody.inventory.store.arena)
    (live_perm : custody.inventory.store.live.Perm store.live) :
    (custody.withStore store).Kept := by
  obtain ⟨arena, live, maxSamples, dropped⟩ := store
  cases arena_eq
  have balanced := kept.balanced.shuffle live_perm
  exact kept.carry { balanced with tables := balanced.tables }
    (kept.balanced.hands_of_eq fun _ => rfl)

/-- An event that balanced books always have an answer to. -/
theorem event (kept : custody.Kept) {call : Call} {result : Except Breach Inventory}
    (performs : custody.perform call = result.map custody.withInventory)
    (went : result = .ok inventory)
    (balanced : inventory.Balanced [] custody.held custody.owned)
    (aged : custody.inventory.Ages inventory custody.owned) :
    ∃ after, custody.perform call = .ok after ∧ after.Kept :=
  ⟨custody.withInventory inventory, by rw [performs, went]; rfl,
    kept.carry balanced (balanced.hands aged)⟩

theorem interned (kept : custody.Kept) (text : String) : (custody.interned text).Kept := by
  unfold Custody.interned
  split
  · exact kept
  · rename_i strings id interned
    obtain ⟨counted, -, -⟩ := kept.balanced.tables.intern_text interned
    exact kept.carry { kept.balanced with tables := counted }
      (kept.balanced.hands_of_eq fun _ => rfl)

theorem discard (kept : custody.Kept) {id : StringId} (owned : id ∈ custody.owned) :
    ∃ after, custody.perform (.discard id) = .ok after ∧ after.Kept := by
  have front := (List.perm_cons_erase owned).append_right custody.inventory.texts
  obtain ⟨tables, released, counted, -⟩ :=
    (kept.balanced.tables.congr front (.refl _)).release_string
  refine ⟨_, by simp only [perform, released, Except.map]; rfl, ?_⟩
  exact kept.carry { kept.balanced with tables := counted }
    (kept.balanced.hands_of_eq fun _ => rfl)

/-- A fresh sample gets a handle that no snapshot has. -/
theorem allocate (kept : custody.Kept) (identity : Identity) {tags : List Tag}
    (backtrace : Backtrace) (owned : (tags.flatMap Tag.texts).Subperm custody.owned) :
    (∃ after, custody.perform (.allocate identity tags backtrace) = .ok after ∧ after.Kept) ∨
      ∃ breach, custody.perform (.allocate identity tags backtrace) = .error breach ∧
        custody.Exhausts breach := by
  have handed : custody.owned.Perm
      (tags.flatMap Tag.texts ++ custody.owned.diff (tags.flatMap Tag.texts)) :=
    (List.subperm_append_diff_self_of_count_le
      (List.subperm_ext_iff.mp owned)).symm
  cases recorded : custody.inventory.recordAllocation identity tags backtrace with
  | error breach =>
      exact .inr ⟨breach, by simp [perform, recorded, Except.map],
        .inl (kept.balanced.exhausted_of_allocation handed recorded)⟩
  | ok reached =>
      obtain ⟨inventory, result⟩ := reached
      obtain ⟨-, -, -, -, balanced, -⟩ := kept.balanced.recordAllocation handed recorded
      obtain ⟨hands, unowned⟩ := kept.balanced.hands_of_recordAllocation handed recorded
      refine .inl ⟨_, by simp only [perform, recorded, Except.map]; rfl, ?_, ?_⟩
      · simpa [held, List.flatMap_map] using balanced
      · intro loan listed
        obtain ⟨old, old_listed, rfl⟩ := List.mem_map.mp listed
        have holds := (kept.holds old old_listed).aged fun handle member =>
          hands handle (loan_subset old_listed member)
        refine ⟨holds.handles_nodup, ?_, holds.resolves⟩
        refine List.disjoint_append_right.mpr ⟨holds.unissued, fun handle member issued => ?_⟩
        exact unowned handle (Option.mem_toList.mp issued) (loan_subset old_listed member)

/-- A snapshot takes each live sample once. -/
theorem snapshot (kept : custody.Kept) :
    (∃ after, custody.perform .snapshot = .ok after ∧ after.Kept) ∨
      ∃ breach, custody.perform .snapshot = .error breach ∧ custody.Exhausts breach := by
  cases taken : custody.inventory.store.snapshot with
  | error breach =>
      refine .inr ⟨breach, by simp [perform, taken, Except.map], .inr ?_⟩
      by_contra few
      obtain ⟨store, fits⟩ := kept.balanced.exists_snapshot fun handle => by
        have bound := kept.count_held_le handle
        omega
      cases taken.symm.trans fits
  | ok reached =>
      obtain ⟨handles, store⟩ := reached
      obtain ⟨rfl, balanced, arena, rfl, reads⟩ := kept.balanced.snapshot taken
      refine .inl ⟨_, by simp only [perform, taken, Except.map]; rfl, balanced, ?_⟩
      intro loan listed
      have hands : custody.inventory.Hands
          { custody.inventory with store := { custody.inventory.store with arena } } custody.held :=
        kept.balanced.hands_of_eq reads
      rcases List.mem_cons.mp listed with rfl | before
      · refine ⟨?_, List.disjoint_nil_right _, ?_⟩
        · simpa using kept.balanced.handles_nodup
        · refine Loan.resolves_of_found fun handle member => ?_
          exact balanced.exists_sample_iff.mpr (List.mem_append_left _ member)
      · exact (kept.holds loan before).aged fun handle member =>
          hands handle (loan_subset before member)

theorem giveBack (kept : custody.Kept) {handles : List Handle} (listed : loan ∈ custody.loans)
    (same : handles.Perm loan.handles) :
    ∃ after, custody.perform (.giveBack loan handles) = .ok after ∧ after.Kept := by
  have split : custody.held.Perm (handles ++ (custody.loans.erase loan).flatMap Loan.handles) := by
    refine ((List.perm_cons_erase listed).flatMap_right _).trans ?_
    exact same.symm.append_right _
  obtain ⟨inventory, released, balanced, -, aged⟩ :=
    (kept.balanced.congr_held split).releaseSnapshot
  refine ⟨_, by simp only [perform, released, Except.map]; rfl, balanced, fun other remains => ?_⟩
  have hands := balanced.hands aged
  exact (kept.holds other (List.mem_of_mem_erase remains)).aged fun handle member =>
    hands handle (List.mem_flatMap.mpr ⟨other, remains, member⟩)

/-- Every call that is permitted has a result, unless there is no room for it. -/
theorem perform (kept : custody.Kept) {call : Call} (permitted : custody.Permits call) :
    (∃ after, custody.perform call = .ok after ∧ after.Kept) ∨
      ∃ breach, custody.perform call = .error breach ∧ custody.Exhausts breach := by
  cases call with
  | intern text => exact .inl ⟨_, rfl, kept.interned text⟩
  | discard id => exact .inl (kept.discard permitted)
  | allocate identity tags backtrace => exact kept.allocate identity backtrace permitted
  | drop => exact .inl ⟨_, rfl, kept.recount rfl (.refl _)⟩
  | release identity =>
      obtain ⟨after, went, balanced, -, aged⟩ := kept.balanced.recordRelease identity
      exact .inl (kept.event rfl went balanced aged)
  | relocate former latter =>
      obtain ⟨after, went, balanced, aged, -⟩ := kept.balanced.recordRelocation former latter
      exact .inl (kept.event rfl went balanced aged)
  | snapshot => exact kept.snapshot
  | giveBack loan handles => exact .inl (kept.giveBack permitted.1 permitted.2)
  | clear =>
      obtain ⟨after, went, balanced, -, aged⟩ := kept.balanced.clear
      exact .inl (kept.event rfl went balanced aged)
  | setMaxSamples count => exact .inl ⟨_, rfl, kept.recount rfl (.refl _)⟩
  | takeDropped => exact .inl ⟨_, rfl, kept.recount rfl (.refl _)⟩
  | restoreDropped count => exact .inl ⟨_, rfl, kept.recount rfl (.refl _)⟩
  | rehash live => exact .inl ⟨_, rfl, kept.recount rfl permitted⟩

end Kept

theorem Reachable.kept (reached : Reachable maxSamples custody) : custody.Kept := by
  induction reached with
  | opened => exact kept_opened maxSamples
  | called _ permitted performed ih =>
      rcases ih.perform permitted with ⟨after, same, kept⟩ | ⟨breach, failed, _⟩
      · cases same.symm.trans performed
        exact kept
      · cases failed.symm.trans performed

theorem reachable_of_attempt {after : Custody} {call : Call}
    (reached : Reachable maxSamples custody)
    (went : custody.attempt call = some after) : Reachable maxSamples after := by
  unfold attempt at went
  split at went
  · rename_i permitted
    cases performed : custody.perform call with
    | error breach => simp [performed, Except.toOption] at went
    | ok reached' =>
        simp only [performed, Except.toOption, Option.some.injEq] at went
        exact went ▸ reached.called permitted performed
  · cases went

theorem reachable_of_attempts {after : Custody} {calls : List Call}
    (reached : Reachable maxSamples custody) (went : calls.foldlM attempt custody = some after) :
    Reachable maxSamples after := by
  induction calls generalizing custody with
  | nil =>
      cases went
      exact reached
  | cons call rest ih =>
      rw [List.foldlM_cons, Option.bind_eq_bind, Option.bind_eq_some_iff] at went
      obtain ⟨middle, first, others⟩ := went
      exact ih (reachable_of_attempt reached first) others

/-- A state with a property that can be computed is found by making calls. -/
theorem exists_of_attempts (maxSamples : Nat) (calls : List Call) (check : Custody → Bool)
    (passes : ((calls.foldlM attempt (opened maxSamples)).any check) = true) :
    ∃ custody, Reachable maxSamples custody ∧ check custody = true := by
  obtain ⟨custody, went, passed⟩ := (Option.any_eq_true _ _).mp passes
  exact ⟨custody, reachable_of_attempts .opened went, passed⟩

/-! ## What holds between calls -/

/-- The live table, the samples, their owners and the snapshots agree. -/
structure Upheld (custody : Custody) : Prop where
  /-- What the table lists can be looked up, and nothing else can. -/
  listed_iff : ∀ {identity : Identity} {handle : Handle},
    (identity, handle) ∈ custody.inventory.store.live ↔
      custody.inventory.store.handle? identity = some handle
  live_resolves : ∀ {identity : Identity} {handle : Handle},
    custody.inventory.store.handle? identity = some handle →
      ∃ sample, custody.inventory.store.sample? handle = some sample ∧
        sample.isReleased = false ∧ sample.identity = some identity
  handles_distinct : ∀ {one other : Identity} {handle : Handle},
    custody.inventory.store.handle? one = some handle →
      custody.inventory.store.handle? other = some handle → one = other
  owners_eq : ∀ {handle : Handle} {owners : Nat},
    custody.inventory.store.arena.owners? handle = some owners →
      owners = (if handle ∈ custody.live then 1 else 0) +
        custody.loans.countP fun loan => handle ∈ loan.handles
  holds : ∀ loan ∈ custody.loans, loan.Holds custody.inventory
  outside : ∀ {handle : Handle} {sample : Sample},
    custody.inventory.store.sample? handle = some sample → handle ∉ custody.live →
      sample.isReleased = true ∧ sample.identity = none
  retained_eq : custody.inventory.store.retainedCount =
    (custody.live ++ custody.held).toFinset.card
  retained_eq_live : custody.loans = [] →
    custody.inventory.store.retainedCount = custody.inventory.store.liveCount

theorem Kept.upheld (kept : custody.Kept) : custody.Upheld where
  listed_iff := kept.balanced.handle?_eq_some_iff.symm
  live_resolves {identity handle} listed := by
    obtain ⟨sample, found, named, standing⟩ :=
      kept.balanced.exists_live_sample (kept.balanced.handle?_eq_some_iff.mp listed)
    exact ⟨sample, found, standing, named⟩
  handles_distinct {one other handle} first second := by
    have first_listed := kept.balanced.handle?_eq_some_iff.mp first
    have second_listed := kept.balanced.handle?_eq_some_iff.mp second
    have nodup := kept.balanced.handles_nodup
    rw [List.append_nil] at nodup
    exact congrArg Prod.fst (List.inj_on_of_nodup_map nodup first_listed second_listed rfl)
  owners_eq {handle owners} counted := by
    have accounted := kept.balanced.owners.owners_eq handle
    have nodup := kept.balanced.handles_nodup
    rw [List.append_nil] at nodup
    rw [counted, Option.getD_some, List.nil_append, List.count_append, nodup.count,
      kept.count_held_eq] at accounted
    exact accounted
  holds := kept.holds
  outside {handle sample} found unlisted := by
    rw [← List.append_nil custody.live] at unlisted
    have released := (kept.balanced.released_iff found).mpr unlisted
    exact ⟨released, kept.balanced.nameless found released⟩
  retained_eq := kept.balanced.owners.size_eq_card
  retained_eq_live none_left := by
    have nodup := kept.balanced.handles_nodup
    have accounted := kept.balanced.owners
    simp only [held, none_left, List.flatMap_nil, List.append_nil] at nodup accounted
    rw [Store.retainedCount, accounted.size_eq_length nodup, List.length_map, Store.liveCount]

/--
Whatever is called, the store is in order afterwards; and the next call has a result, unless there
is no room for what it asks.
-/
theorem upheld_of_reachable (reached : Reachable maxSamples custody) :
    custody.Upheld ∧ ∀ call, custody.Permits call →
      (∃ after, custody.perform call = .ok after) ∨
        ∃ breach, custody.perform call = .error breach ∧ custody.Exhausts breach := by
  refine ⟨reached.kept.upheld, fun call permitted => ?_⟩
  rcases reached.kept.perform permitted with ⟨after, performed, -⟩ | failed
  · exact .inl ⟨after, performed⟩
  · exact .inr failed

/--
A snapshot was taken before and another one after the first object replaced the second; the first
snapshot has gone back, a third one was taken, and then the session ended.
-/
theorem upheld_when_cleared_under_snapshots :
    ∃ custody, Reachable 2 custody ∧ custody.Upheld ∧ custody.loans.length = 2 ∧
      custody.inventory.store.liveCount = 0 ∧ custody.inventory.store.retainedCount = 2 := by
  obtain ⟨custody, reached, found⟩ := exists_of_attempts 2
    [.intern "type", .intern "cache", .allocate ⟨1⟩ [⟨⟨1⟩, ⟨2⟩⟩] {}, .allocate ⟨2⟩ [] {},
      .snapshot, .relocate ⟨1⟩ ⟨2⟩, .snapshot,
      .giveBack ⟨[⟨0, 0⟩, ⟨1, 0⟩],
        [.new ⟨1⟩ [⟨⟨1⟩, ⟨2⟩⟩] {}, .new ⟨2⟩ [] {}], []⟩ [⟨1, 0⟩, ⟨0, 0⟩],
      .allocate ⟨3⟩ [] {}, .snapshot, .clear]
    (fun custody => custody.loans.length = 2 && custody.inventory.store.liveCount = 0 &&
      custody.inventory.store.retainedCount = 2)
    (by decide +kernel)
  simp only [Bool.and_eq_true, decide_eq_true_eq] at found
  obtain ⟨⟨loans, live⟩, retained⟩ := found
  exact ⟨custody, reached, (upheld_of_reachable reached).1, loans, live, retained⟩

end Custody

end HeapSampler
