import Mathlib
import HeapSampler.Proofs.Store.Owners

/-!
# Handles that are handed out and given back

A cell is used again and again, and its handles differ in the generation alone, which counts how
often the cell has been emptied.  As long as no count has come round to where it began, a handle
stands for the sample that it was handed out for and for no other: it leads to the sample while
there are owners, the sample is handed back with the last of them, and from then on the handle
leads nowhere.  The callers decide which handles they name: some may be outdated, and some may
never have been handed out.
-/

namespace HeapSampler

namespace Slab

variable {α : Type} {slab : Slab α}

theorem Sound.next_le (sound : slab.Sound) : slab.next ≤ slab.cells.size := by
  cases vacant : slab.free with
  | nil => simp [next, vacant]
  | cons index rest =>
      have inside := ((sound.mem_free_iff index).mp (by simp [vacant])).1
      simpa [next, vacant] using inside.le

/-- The row grows just far enough to have the cell that is filled. -/
theorem Sound.size_insert (sound : slab.Sound) (content : α) :
    (slab.insert content).cells.size = max slab.cells.size (slab.next + 1) := by
  cases vacant : slab.free with
  | nil => simp [Slab.insert, next, vacant]
  | cons index rest =>
      have inside := ((sound.mem_free_iff index).mp (by simp [vacant])).1
      have enough : index + 1 ≤ slab.cells.size := inside
      simp [Slab.insert, next, vacant, enough]

/-- If the next cell is beyond all cells, every cell holds something. -/
theorem Sound.occupied_of_next (sound : slab.Sound) (beyond : slab.next = slab.cells.size) :
    slab.occupied = slab.cells.size := by
  refine sound.occupied_eq_size ?_
  rw [List.eq_nil_iff_forall_not_mem]
  intro index member
  cases vacant : slab.free with
  | nil => simp [vacant] at member
  | cons first rest =>
      have inside := ((sound.mem_free_iff first).mp (by simp [vacant])).1
      have next_eq : slab.next = first := by simp [next, vacant]
      omega

end Slab

namespace Arena

/-! ## Calls in a row -/

inductive Call where
  | insert (sample : Sample)
  | retain (handle : Handle)
  | release (handle : Handle)
  deriving DecidableEq

inductive Answer where
  | placed (handle : Handle)
  | done
  | released (last : Option Sample)
  deriving DecidableEq

/-- The arena after a call and the answer, unless the call is refused: an insertion for want of a
cell, any other call because the handle leads nowhere or no further owner can be counted. -/
def perform (arena : Arena) : Call → Option (Arena × Answer)
  | .insert sample => (arena.insert sample).map fun (after, handle) => (after, .placed handle)
  | .retain handle => (arena.retain? handle).map fun after => (after, .done)
  | .release handle => (arena.release? handle).map fun (after, last) => (after, .released last)

structure Moment where
  before : Arena
  call : Call

namespace Moment

def outcome (moment : Moment) : Option (Arena × Answer) :=
  moment.before.perform moment.call

def after (moment : Moment) : Arena :=
  (moment.outcome.map Prod.fst).getD moment.before

def made (call : Call) (moment : Moment) : Bool :=
  decide (moment.call = call) && moment.outcome.isSome

/-- The handle that is handed out, with the sample it is handed out for. -/
def placed? (moment : Moment) : Option (Handle × Sample) :=
  match moment.call, moment.outcome with
  | .insert sample, some (_, .placed handle) => some (handle, sample)
  | _, _ => none

/-- The sample that is handed back, with the handle that is given back for it. -/
def returned? (moment : Moment) : Option (Handle × Sample) :=
  match moment.call, moment.outcome with
  | .release handle, some (_, .released (some sample)) => some (handle, sample)
  | _, _ => none

end Moment

def reached : List Call → Arena
  | [] => {}
  | call :: earlier => (Moment.mk (reached earlier) call).after

def moments : List Call → List Moment
  | [] => []
  | call :: earlier => ⟨reached earlier, call⟩ :: moments earlier

section History

variable (history : List Moment)

def placed : List (Handle × Sample) := history.filterMap Moment.placed?

def returned : List (Handle × Sample) := history.filterMap Moment.returned?

/-- One for being handed out, one for each time the handle was retained, less one for each time it
was released. -/
def references (handle : Handle) : Int :=
  1 + history.countP (·.made (.retain handle)) - history.countP (·.made (.release handle))

def vacancies (index : Nat) : Nat :=
  (returned history).countP fun entry => entry.1.index = index

def placedFor (handle : Handle) : List Sample :=
  ((placed history).filter (·.1 = handle)).map Prod.snd

def returnedFor (handle : Handle) : List Sample :=
  ((returned history).filter (·.1 = handle)).map Prod.snd

end History

/-! ## What a call does -/

section Insertion

variable {arena after : Arena} {handle : Handle} {sample : Sample}

theorem next_le_of_insert (inserted : arena.insert sample = some (after, handle)) :
    arena.slab.next ≤ maxWord := by
  simp only [Arena.insert, Option.ite_none_right_eq_some] at inserted
  exact inserted.1

theorem size_generations_of_insert (inserted : arena.insert sample = some (after, handle)) :
    after.generations.size = if arena.slab.next < arena.generations.size then arena.generations.size
      else arena.generations.size + 1 := by
  simp only [Arena.insert, Option.ite_none_right_eq_some, Option.some.injEq, Prod.mk.injEq]
    at inserted
  obtain ⟨-, rfl, -⟩ := inserted
  dsimp only
  split
  · rfl
  · exact Array.size_push _

end Insertion

namespace Moment

inductive Goes (moment : Moment) : Prop where
  | refused (went : moment.outcome = none)
  | placed (sample : Sample) (after : Arena) (handle : Handle)
      (call_eq : moment.call = .insert sample)
      (inserted : moment.before.insert sample = some (after, handle))
      (went : moment.outcome = some (after, .placed handle))
  | retained (handle : Handle) (content : Owned) (call_eq : moment.call = .retain handle)
      (found : moment.before.owned? handle = some content)
      (went : moment.outcome =
        some ({ moment.before with
          slab := moment.before.slab.put handle.index
            { content with owners := content.owners + 1 } }, .done))
  | shared (handle : Handle) (content : Owned) (call_eq : moment.call = .release handle)
      (found : moment.before.owned? handle = some content) (several : 1 < content.owners)
      (went : moment.outcome =
        some ({ moment.before with
          slab := moment.before.slab.put handle.index
            { content with owners := content.owners - 1 } }, .released none))
  | emptied (handle : Handle) (content : Owned) (call_eq : moment.call = .release handle)
      (found : moment.before.owned? handle = some content) (last : ¬1 < content.owners)
      (went : moment.outcome =
        some ({ slab := moment.before.slab.erase handle.index
                generations := moment.before.generations.setIfInBounds handle.index
                  (moment.before.generation handle.index + 1)
                size := moment.before.size - 1 },
          .released (some content.sample)))

theorem goes (moment : Moment) : moment.Goes := by
  cases went : moment.outcome with
  | none => exact .refused went
  | some result =>
      have performed := went
      unfold outcome at performed
      cases call_eq : moment.call with
      | insert sample =>
          rw [call_eq] at performed
          obtain ⟨⟨after, handle⟩, inserted, rfl⟩ := Option.map_eq_some_iff.mp performed
          exact .placed sample after handle call_eq inserted went
      | retain handle =>
          rw [call_eq] at performed
          obtain ⟨after, retained, rfl⟩ := Option.map_eq_some_iff.mp performed
          unfold retain? at retained
          cases found : moment.before.owned? handle with
          | none => simp [found] at retained
          | some content =>
              simp only [found, Option.ite_none_right_eq_some, Option.some.injEq] at retained
              obtain ⟨-, rfl⟩ := retained
              exact .retained handle content call_eq found went
      | release handle =>
          rw [call_eq] at performed
          obtain ⟨⟨after, last⟩, released, rfl⟩ := Option.map_eq_some_iff.mp performed
          obtain ⟨content, found, result_eq⟩ := Option.map_eq_some_iff.mp released
          split at result_eq
          · rename_i several
            cases result_eq
            exact .shared handle content call_eq found several went
          · rename_i single
            cases result_eq
            exact .emptied handle content call_eq found single went

end Moment

/-! ## What a moment adds to the history -/

section History

variable {moment : Moment} {history : List Moment} {handle given : Handle} {sample : Sample}

theorem placedFor_of_none (nothing : moment.placed? = none) :
    placedFor (moment :: history) handle = placedFor history handle := by
  simp [placedFor, placed, nothing]

theorem placedFor_of_some (handed : moment.placed? = some (given, sample)) :
    placedFor (moment :: history) handle =
      if given = handle then sample :: placedFor history handle else placedFor history handle := by
  by_cases same : given = handle <;> simp [placedFor, placed, handed, same]

theorem returnedFor_of_none (nothing : moment.returned? = none) :
    returnedFor (moment :: history) handle = returnedFor history handle := by
  simp [returnedFor, returned, nothing]

theorem returnedFor_of_some (handed : moment.returned? = some (given, sample)) :
    returnedFor (moment :: history) handle =
      if given = handle then sample :: returnedFor history handle
      else returnedFor history handle := by
  by_cases same : given = handle <;> simp [returnedFor, returned, handed, same]

theorem vacancies_of_none (nothing : moment.returned? = none) (index : Nat) :
    vacancies (moment :: history) index = vacancies history index := by
  simp [vacancies, returned, nothing]

theorem vacancies_of_some (handed : moment.returned? = some (given, sample)) (index : Nat) :
    vacancies (moment :: history) index =
      vacancies history index + if given.index = index then 1 else 0 := by
  simp [vacancies, returned, handed, List.countP_cons]

theorem references_cons (moment : Moment) (history : List Moment) (handle : Handle) :
    references (moment :: history) handle = references history handle +
      (if moment.made (.retain handle) then 1 else 0) -
      (if moment.made (.release handle) then 1 else 0) := by
  simp only [references, List.countP_cons]
  split <;> split <;> push_cast <;> ring

theorem vacancies_le (moment : Moment) (history : List Moment) (index : Nat) :
    vacancies history index ≤ vacancies (moment :: history) index := by
  cases handed : moment.returned? with
  | none => exact (vacancies_of_none handed index).ge
  | some entry =>
      rw [vacancies_of_some handed]
      exact Nat.le_add_right _ _

end History

/-! ## What becomes of a handle -/

/-- What the arena has for a handle, and what the history tells about it. -/
inductive Fate (arena : Arena) (history : List Moment) (handle : Handle) : Prop where
  | unplaced (vacant : arena.owned? handle = none) (placed_eq : placedFor history handle = [])
      (returned_eq : returnedFor history handle = [])
      (references_eq : references history handle = 1)
  | held (content : Owned) (found : arena.owned? handle = some content)
      (owners_pos : 0 < content.owners) (placed_eq : placedFor history handle = [content.sample])
      (returned_eq : returnedFor history handle = [])
      (references_eq : references history handle = content.owners)
  | gone (sample : Sample) (vacant : arena.owned? handle = none)
      (placed_eq : placedFor history handle = [sample])
      (returned_eq : returnedFor history handle = [sample])
      (references_eq : references history handle = 0)
      (outdated : handle.generation.toNat < vacancies history handle.index)

structure Traced (arena : Arena) (history : List Moment) : Prop where
  slab : arena.slab.Sound
  bounded : arena.slab.cells.size ≤ maxWord + 1
  sized : arena.slab.cells.size ≤ arena.generations.size
  size_eq : arena.size = arena.slab.occupied
  generation_eq : ∀ index, arena.generation index = UInt32.ofNat (vacancies history index)
  fate : ∀ handle, arena.Fate history handle

section Fates

variable {arena after : Arena} {moment : Moment} {history : List Moment} {handle : Handle}
  {content : Owned}

/-- A moment that neither concerns the handle nor changes what it leads to. -/
theorem Fate.stays (fate : arena.Fate history handle)
    (owned_eq : after.owned? handle = arena.owned? handle)
    (placed_eq : placedFor (moment :: history) handle = placedFor history handle)
    (returned_eq : returnedFor (moment :: history) handle = returnedFor history handle)
    (references_eq : references (moment :: history) handle = references history handle) :
    after.Fate (moment :: history) handle := by
  cases fate with
  | unplaced vacant unplaced unreturned unreferenced =>
      exact .unplaced (owned_eq.trans vacant) (placed_eq.trans unplaced)
        (returned_eq.trans unreturned) (references_eq.trans unreferenced)
  | held content found owners_pos placed unreturned referenced =>
      exact .held content (owned_eq.trans found) owners_pos (placed_eq.trans placed)
        (returned_eq.trans unreturned) (references_eq.trans referenced)
  | gone sample vacant placed returned unreferenced outdated =>
      exact .gone sample (owned_eq.trans vacant) (placed_eq.trans placed)
        (returned_eq.trans returned) (references_eq.trans unreferenced)
        (outdated.trans_le (vacancies_le moment history _))

/-- What is known of a handle that leads to a sample. -/
theorem Fate.held_of_owned? (fate : arena.Fate history handle)
    (found : arena.owned? handle = some content) :
    0 < content.owners ∧ placedFor history handle = [content.sample] ∧
      returnedFor history handle = [] ∧ references history handle = content.owners := by
  cases fate with
  | unplaced vacant => cases vacant.symm.trans found
  | held own own_found owners_pos placed_eq returned_eq references_eq =>
      cases own_found.symm.trans found
      exact ⟨owners_pos, placed_eq, returned_eq, references_eq⟩
  | gone sample vacant => cases vacant.symm.trans found

/-- The next cell has a handle that was never handed out: of those with its index, each that was
handed out counts fewer vacancies. -/
theorem Traced.fresh (traced : arena.Traced history)
    (below : vacancies history arena.slab.next < 2 ^ 32)
    (next : handle = ⟨arena.slab.next, arena.generation arena.slab.next⟩) :
    placedFor history handle = [] ∧ returnedFor history handle = [] ∧
      references history handle = 1 := by
  have vacant : arena.owned? handle = none := by
    rw [next]
    exact owned?_of_vacant traced.slab.get?_next
  cases traced.fate handle with
  | unplaced _ placed_eq returned_eq references_eq =>
      exact ⟨placed_eq, returned_eq, references_eq⟩
  | held content found => cases vacant.symm.trans found
  | gone sample _ _ _ _ outdated =>
      have current : handle.generation.toNat = vacancies history handle.index := by
        rw [next, traced.generation_eq, UInt32.toNat_ofNat', Nat.mod_eq_of_lt below]
      exact absurd current outdated.ne

end Fates

namespace Moment

variable {moment : Moment} {history : List Moment} {handle : Handle} {content : Owned}
  {after : Arena} {answer : Answer}

theorem after_of_refused (refused : moment.outcome = none) : moment.after = moment.before := by
  rw [Moment.after, refused, Option.map_none, Option.getD_none]

theorem after_of_outcome (went : moment.outcome = some (after, answer)) : moment.after = after := by
  rw [Moment.after, went, Option.map_some, Option.getD_some]

theorem made_of_refused (refused : moment.outcome = none) (call : Call) :
    moment.made call = false := by
  simp [made, refused]

theorem made_of_outcome (went : moment.outcome = some (after, answer)) (call : Call) :
    moment.made call = decide (moment.call = call) := by
  simp [made, went]

/-- A call that is refused is no part of the history. -/
theorem traced_of_refused (traced : moment.before.Traced history)
    (refused : moment.outcome = none) : moment.after.Traced (moment :: history) := by
  have unplaced : moment.placed? = none := by simp [placed?, refused]
  have unreturned : moment.returned? = none := by simp [returned?, refused]
  rw [after_of_refused refused]
  refine ⟨traced.slab, traced.bounded, traced.sized, traced.size_eq,
    fun index => ?_, fun handle => ?_⟩
  · rw [traced.generation_eq, vacancies_of_none unreturned]
  · refine (traced.fate handle).stays rfl (placedFor_of_none unplaced)
      (returnedFor_of_none unreturned) ?_
    simp [references_cons, made_of_refused refused]

/-- A sample that is taken in under a handle that is new. -/
theorem traced_of_placed (traced : moment.before.Traced history)
    (below : vacancies history moment.before.slab.next < 2 ^ 32) {sample : Sample} {given : Handle}
    (call_eq : moment.call = .insert sample)
    (inserted : moment.before.insert sample = some (after, given))
    (went : moment.outcome = some (after, .placed given)) :
    moment.after.Traced (moment :: history) := by
  have handed : moment.placed? = some (given, sample) := by simp [placed?, call_eq, went]
  have unreturned : moment.returned? = none := by simp [returned?, call_eq]
  have unchanged (handle : Handle) :
      references (moment :: history) handle = references history handle := by
    simp [references_cons, made, call_eq]
  have next_le := traced.slab.next_le
  have room := next_le_of_insert inserted
  have grown := size_generations_of_insert inserted
  obtain ⟨generations, same, rfl, given_eq⟩ := exists_of_insert inserted
  rw [after_of_outcome went]
  have size_eq := traced.slab.size_insert ⟨sample, 1⟩
  have bounded := traced.bounded
  have sized := traced.sized
  refine ⟨traced.slab.insert _, ?_, ?_, ?_, fun index => ?_, fun handle => ?_⟩
  · dsimp only
    omega
  · dsimp only at grown ⊢
    split at grown <;> omega
  · rw [traced.slab.occupied_insert, traced.size_eq]
  · rw [vacancies_of_none unreturned, ← traced.generation_eq]
    exact same index
  · have owned_eq := owned?_fill traced.slab same ⟨sample, 1⟩ (moment.before.size + 1) handle
    rw [← given_eq] at owned_eq
    by_cases equal : handle = given
    · subst equal
      obtain ⟨placed_eq, returned_eq, references_eq⟩ := traced.fresh below given_eq
      refine .held ⟨sample, 1⟩ (by rw [owned_eq, if_pos rfl]) Nat.one_pos ?_ ?_ ?_
      · rw [placedFor_of_some handed, if_pos rfl, placed_eq]
      · rw [returnedFor_of_none unreturned, returned_eq]
      · rw [unchanged, references_eq]
        rfl
    · refine (traced.fate handle).stays (by rw [owned_eq, if_neg equal]) ?_
        (returnedFor_of_none unreturned) (unchanged handle)
      rw [placedFor_of_some handed, if_neg (Ne.symm equal)]

/-- A call that changes nothing but the number of owners of a sample, which stays above zero. -/
theorem traced_of_recounted (traced : moment.before.Traced history)
    (unplaced : moment.placed? = none) (unreturned : moment.returned? = none)
    (found : moment.before.owned? handle = some content) {count : Nat} (positive : 0 < count)
    (references_eq : ∀ other, references (moment :: history) other =
      references history other + if other = handle then (count : Int) - content.owners else 0)
    (after_eq : moment.after = { moment.before with
      slab := moment.before.slab.put handle.index { content with owners := count } }) :
    moment.after.Traced (moment :: history) := by
  have size_eq : (moment.before.slab.put handle.index
      { content with owners := count }).cells.size = moment.before.slab.cells.size :=
    Array.size_setIfInBounds
  rw [after_eq]
  refine ⟨traced.slab.put (owned?_eq_some_iff.mp found).2 _, ?_, ?_, ?_, fun index => ?_,
    fun other => ?_⟩
  · exact size_eq.trans_le traced.bounded
  · exact size_eq.trans_le traced.sized
  · exact traced.size_eq.trans (Slab.occupied_put (owned?_eq_some_iff.mp found).2 _).symm
  · rw [vacancies_of_none unreturned]
    exact traced.generation_eq index
  · have owned_eq := owned?_replace found { content with owners := count } other
    by_cases same : other = handle
    · subst same
      obtain ⟨-, placed_eq, returned_eq, counted⟩ := (traced.fate other).held_of_owned? found
      refine .held { content with owners := count } (by rw [owned_eq, if_pos rfl]) positive ?_ ?_ ?_
      · rw [placedFor_of_none unplaced, placed_eq]
      · rw [returnedFor_of_none unreturned, returned_eq]
      · rw [references_eq, if_pos rfl, counted]
        dsimp only
        omega
    · refine (traced.fate other).stays (by rw [owned_eq, if_neg same])
        (placedFor_of_none unplaced) (returnedFor_of_none unreturned) ?_
      rw [references_eq, if_neg same, Int.add_zero]

/-- The last owner goes, and the cell is emptied. -/
theorem traced_of_emptied (traced : moment.before.Traced history)
    (call_eq : moment.call = .release handle)
    (found : moment.before.owned? handle = some content) (last : ¬1 < content.owners)
    (went : moment.outcome =
      some ({ slab := moment.before.slab.erase handle.index
              generations := moment.before.generations.setIfInBounds handle.index
                (moment.before.generation handle.index + 1)
              size := moment.before.size - 1 },
        .released (some content.sample))) :
    moment.after.Traced (moment :: history) := by
  have unplaced : moment.placed? = none := by simp [placed?, call_eq]
  have handed : moment.returned? = some (handle, content.sample) := by
    simp [returned?, call_eq, went]
  have references_eq (other : Handle) : references (moment :: history) other =
      references history other - if handle = other then 1 else 0 := by
    simp [references_cons, made_of_outcome went, call_eq]
  obtain ⟨current, present⟩ := owned?_eq_some_iff.mp found
  have inside : handle.index < moment.before.generations.size :=
    (Slab.lt_size_of_get? present).trans_le traced.sized
  have size_eq : (moment.before.slab.erase handle.index).cells.size =
      moment.before.slab.cells.size := Array.size_setIfInBounds
  rw [after_of_outcome went]
  refine ⟨traced.slab.erase present, ?_, ?_, ?_, fun index => ?_, fun other => ?_⟩
  · exact size_eq.trans_le traced.bounded
  · rw [Array.size_setIfInBounds]
    exact size_eq.trans_le traced.sized
  · rw [traced.size_eq, Slab.occupied_erase present, Nat.add_sub_cancel]
  · have before := traced.generation_eq index
    rw [vacancies_of_some handed]
    by_cases same : handle.index = index
    · subst same
      rw [if_pos rfl, UInt32.ofNat_add, ← before]
      simp [generation, inside]
    · rw [if_neg same, Nat.add_zero, ← before]
      simp [generation, same]
  · have owned_eq := owned?_vacate found (moment.before.generation handle.index + 1)
      (moment.before.size - 1) other
    by_cases same : other = handle
    · subst same
      obtain ⟨owners_pos, placed_eq, returned_eq, counted⟩ :=
        (traced.fate other).held_of_owned? found
      refine .gone content.sample (by rw [owned_eq, if_pos rfl]) ?_ ?_ ?_ ?_
      · rw [placedFor_of_none unplaced, placed_eq]
      · rw [returnedFor_of_some handed, if_pos rfl, returned_eq]
      · rw [references_eq, if_pos rfl, counted]
        omega
      · rw [← current, traced.generation_eq, vacancies_of_some handed, if_pos rfl,
          UInt32.toNat_ofNat']
        exact (Nat.mod_le _ _).trans_lt (Nat.lt_succ_self _)
    · refine (traced.fate other).stays (by rw [owned_eq, if_neg same])
        (placedFor_of_none unplaced) ?_ ?_
      · rw [returnedFor_of_some handed, if_neg (Ne.symm same)]
      · rw [references_eq, if_neg (Ne.symm same), Int.sub_zero]

/-- Whatever the call is, the arena stays traced by its history. -/
theorem traced_after (traced : moment.before.Traced history)
    (below : ∀ index, vacancies history index < 2 ^ 32) :
    moment.after.Traced (moment :: history) := by
  cases moment.goes with
  | refused refused => exact traced_of_refused traced refused
  | placed sample after handle call_eq inserted went =>
      exact traced_of_placed traced (below _) call_eq inserted went
  | retained handle content call_eq found went =>
      refine traced_of_recounted traced (by simp [placed?, call_eq]) (by simp [returned?, call_eq])
        found (Nat.succ_pos _) (fun other => ?_) (after_of_outcome went)
      by_cases same : other = handle
      · simp [references_cons, made_of_outcome went, call_eq, same]
      · simp [references_cons, made_of_outcome went, call_eq, same, Ne.symm same]
  | shared handle content call_eq found several went =>
      refine traced_of_recounted traced (by simp [placed?, call_eq])
        (by simp [returned?, call_eq, went]) found (Nat.sub_pos_of_lt several) (fun other => ?_)
        (after_of_outcome went)
      by_cases same : other = handle
      · simp [references_cons, made_of_outcome went, call_eq, same]
        omega
      · simp [references_cons, made_of_outcome went, call_eq, same, Ne.symm same]
  | emptied handle content call_eq found last went =>
      exact traced_of_emptied traced call_eq found last went

end Moment

/-! ## Calls in a row -/

theorem traced_empty : ({} : Arena).Traced [] where
  slab := Slab.sound_empty
  bounded := Nat.zero_le _
  sized := le_rfl
  size_eq := rfl
  generation_eq _ := rfl
  fate _ := .unplaced (owned?_of_vacant rfl) rfl rfl rfl

theorem traced_reached (calls : List Call)
    (below : ∀ index, vacancies (moments calls) index < 2 ^ 32) :
    (reached calls).Traced (moments calls) := by
  induction calls with
  | nil => exact traced_empty
  | cons call earlier ih =>
      have below_earlier (index : Nat) : vacancies (moments earlier) index < 2 ^ 32 :=
        (vacancies_le _ _ index).trans_lt (below index)
      exact Moment.traced_after (ih below_earlier) below_earlier

theorem vacancies_le_length (history : List Moment) (index : Nat) :
    vacancies history index ≤ history.length :=
  List.countP_le_length.trans (List.length_filterMap_le _ _)

/-! ## What can be seen -/

/-- What can be seen of an arena after some moments. -/
structure Exact (arena : Arena) (history : List Moment) : Prop where
  /-- A handle leads to the sample that it was handed out for, as long as there are owners. -/
  resolves : ∀ handle sample, arena.get? handle = some sample ↔
    (handle, sample) ∈ placed history ∧ 0 < references history handle
  /-- The sample is handed back once, when the last owner has gone. -/
  returned_eq : ∀ {handle : Handle} {sample : Sample}, (handle, sample) ∈ placed history →
    0 ≤ references history handle ∧
      returnedFor history handle = if references history handle = 0 then [sample] else []
  /-- Nothing is handed back but what was taken in. -/
  placed_of_returned : ∀ entry ∈ returned history, entry ∈ placed history
  /-- No handle is handed out a second time. -/
  handles_nodup : ((placed history).map Prod.fst).Nodup
  /-- The counter tells how many handles lead to a sample. -/
  size : ∃ handles : Finset Handle, arena.size = handles.card ∧
    ∀ handle, handle ∈ handles ↔ ∃ sample, arena.get? handle = some sample

/-- What a call does after some moments. -/
structure Moment.Answers (moment : Moment) (history : List Moment) : Prop where
  /-- A sample is taken in under a handle that was never handed out. -/
  inserts : ∀ {sample : Sample} {after : Arena} {answer : Answer}, moment.call = .insert sample →
    moment.outcome = some (after, answer) →
      ∃ handle, answer = .placed handle ∧ handle ∉ (placed history).map Prod.fst
  /-- None is refused before every cell there can be is in use. -/
  full : ∀ {sample : Sample}, moment.call = .insert sample → moment.outcome = none →
    moment.before.size = 2 ^ 32
  /-- A handle that leads nowhere cannot be retained, nor one with as many owners as can be
  counted; any other can. -/
  retains : ∀ {handle : Handle}, moment.call = .retain handle →
    (moment.outcome ≠ none ↔ (∃ sample, moment.before.get? handle = some sample) ∧
      references history handle < maxWord)
  /-- A handle that leads nowhere cannot be released; any other can, and the sample is handed back
  with its last owner. -/
  releases : ∀ {handle : Handle}, moment.call = .release handle →
    moment.outcome.map Prod.snd = (moment.before.get? handle).map fun sample =>
      .released (if references history handle = 1 then some sample else none)
  /-- A call that is refused changes nothing. -/
  refused : moment.outcome = none → moment.after = moment.before

section Seen

variable {arena : Arena} {history : List Moment} {handle : Handle} {sample : Sample}

theorem mem_placedFor : sample ∈ placedFor history handle ↔ (handle, sample) ∈ placed history := by
  simp [placedFor]

theorem mem_returnedFor :
    sample ∈ returnedFor history handle ↔ (handle, sample) ∈ returned history := by
  simp [returnedFor]

theorem count_handles (history : List Moment) (handle : Handle) :
    ((placed history).map Prod.fst).count handle = (placedFor history handle).length := by
  rw [List.count_eq_countP, List.countP_map, placedFor, List.length_map,
    ← List.countP_eq_length_filter]
  rfl

theorem Traced.exact (traced : arena.Traced history) : arena.Exact history where
  resolves handle sample := by
    rw [← mem_placedFor, get?_eq_some_iff]
    cases traced.fate handle with
    | unplaced vacant placed_eq => simp [vacant, placed_eq]
    | held content found owners_pos placed_eq _ references_eq =>
        simp [found, placed_eq, references_eq, owners_pos, eq_comm]
    | gone own vacant placed_eq _ references_eq => simp [vacant, references_eq]
  returned_eq {handle sample} listed := by
    rw [← mem_placedFor] at listed
    cases traced.fate handle with
    | unplaced _ placed_eq => simp [placed_eq] at listed
    | held content _ owners_pos _ returned_eq references_eq =>
        rw [references_eq, returned_eq, if_neg (by omega)]
        exact ⟨Int.natCast_nonneg _, rfl⟩
    | gone own _ placed_eq returned_eq references_eq =>
        rw [placed_eq, List.mem_singleton] at listed
        rw [references_eq, returned_eq, if_pos rfl, listed]
        exact ⟨le_rfl, rfl⟩
  placed_of_returned := by
    rintro ⟨handle, sample⟩ listed
    rw [← mem_returnedFor] at listed
    rw [← mem_placedFor]
    cases traced.fate handle with
    | unplaced _ _ returned_eq => simp [returned_eq] at listed
    | held _ _ _ _ returned_eq => simp [returned_eq] at listed
    | gone own _ placed_eq returned_eq => rwa [placed_eq, ← returned_eq]
  handles_nodup := by
    rw [List.nodup_iff_count_le_one]
    intro handle
    rw [count_handles]
    cases traced.fate handle with
    | unplaced _ placed_eq => simp [placed_eq]
    | held _ _ _ placed_eq => simp [placed_eq]
    | gone _ _ placed_eq => simp [placed_eq]
  size := by
    rw [traced.size_eq]
    exact exists_handles arena

end Seen

namespace Moment

variable {moment : Moment} {history : List Moment} {sample : Sample} {handle : Handle}

theorem size_of_refused (traced : moment.before.Traced history)
    (call_eq : moment.call = .insert sample) (refused : moment.outcome = none) :
    moment.before.size = 2 ^ 32 := by
  have beyond : ¬moment.before.slab.next ≤ maxWord := by
    intro room
    simp [outcome, call_eq, perform, Arena.insert, room] at refused
  have next_le := traced.slab.next_le
  have bounded := traced.bounded
  have all : moment.before.slab.next = moment.before.slab.cells.size := by omega
  rw [traced.size_eq, traced.slab.occupied_of_next all]
  simp only [maxWord] at beyond bounded
  omega

/-- What a release answers depends on what the handle leads to. -/
theorem released_of_owned? (call_eq : moment.call = .release handle) :
    moment.outcome.map Prod.snd = (moment.before.owned? handle).map fun content =>
      .released (if 1 < content.owners then none else some content.sample) := by
  rw [outcome, call_eq, perform, release?, Option.map_map, Option.map_map]
  refine congrArg (Option.map · _) (funext fun content => ?_)
  dsimp only [Function.comp]
  split <;> rfl

theorem retained_of_owned? (call_eq : moment.call = .retain handle) :
    moment.outcome ≠ none ↔
      ∃ content, moment.before.owned? handle = some content ∧ content.owners < maxWord := by
  rw [outcome, call_eq, perform, Ne, Option.map_eq_none_iff, retain?]
  cases moment.before.owned? handle with
  | none => simp
  | some content => simp

theorem answers (traced : moment.before.Traced history)
    (below : ∀ index, vacancies history index < 2 ^ 32) : moment.Answers history where
  inserts {sample after answer} call_eq went := by
    rw [outcome, call_eq] at went
    obtain ⟨⟨reached, handle⟩, inserted, result_eq⟩ := Option.map_eq_some_iff.mp went
    cases result_eq
    obtain ⟨generations, -, -, handle_eq⟩ := exists_of_insert inserted
    refine ⟨handle, rfl, fun listed => ?_⟩
    rw [← List.count_pos_iff, count_handles, (traced.fresh (below _) handle_eq).1] at listed
    exact absurd listed (Nat.lt_irrefl 0)
  full := size_of_refused traced
  retains {handle} call_eq := by
    rw [retained_of_owned? call_eq]
    cases found : moment.before.owned? handle with
    | none => simp [get?, found]
    | some content =>
        have counted := ((traced.fate handle).held_of_owned? found).2.2.2
        simp [get?, found, counted]
  releases {handle} call_eq := by
    rw [released_of_owned? call_eq, get?, Option.map_map]
    cases found : moment.before.owned? handle with
    | none => rfl
    | some content =>
        obtain ⟨positive, -, -, counted⟩ := (traced.fate handle).held_of_owned? found
        have last_iff : references history handle = 1 ↔ ¬1 < content.owners := by
          rw [counted]
          omega
        simp only [Option.map_some, Function.comp_apply, last_iff, ite_not]
  refused := after_of_refused

end Moment

/-- Whatever has been called, with whatever handles, an arena has the samples whose handles have
owners left, and the next call keeps to that, if no cell was emptied so often that its generation
has come round. -/
theorem exact_of_calls (calls : List Call)
    (below : ∀ index, vacancies (moments calls) index < 2 ^ 32) :
    (reached calls).Exact (moments calls) ∧
      ∀ next, (Moment.mk (reached calls) next).Answers (moments calls) :=
  have traced := traced_reached calls below
  ⟨traced.exact, fun _ => Moment.answers traced below⟩

/-- A cell that is used twice: the first handle is released twice and then named once more. -/
theorem exact_of_reuse :
    let sample (value : UInt64) : Sample := .new ⟨value⟩ [] ⟨[⟨value⟩]⟩
    let calls : List Call :=
      [.release ⟨0, 0⟩, .insert (sample 2), .release ⟨0, 0⟩, .release ⟨0, 0⟩, .retain ⟨0, 0⟩,
        .insert (sample 1)]
    (∀ index, vacancies (moments calls) index < 2 ^ 32) ∧
      placed (moments calls) = [(⟨0, 1⟩, sample 2), (⟨0, 0⟩, sample 1)] ∧
      returned (moments calls) = [(⟨0, 0⟩, sample 1)] ∧
      (reached calls).Exact (moments calls) ∧
      ∀ next, (Moment.mk (reached calls) next).Answers (moments calls) := by
  intro sample calls
  have below (index : Nat) : vacancies (moments calls) index < 2 ^ 32 :=
    (vacancies_le_length _ index).trans_lt (by decide)
  exact ⟨below, by decide, by decide, exact_of_calls calls below⟩

end Arena

end HeapSampler
