import Mathlib
import HeapSampler.Proofs.Collector.Stretch

/-!
# The accounts of a flush

A flush goes through its snapshot twice.  The first time it skips the samples that the host has no
places for, the second time it gives sizes to those that are to be exported.  At each of its
requests every sample of the snapshot is accounted for, or its turn is still to come.  What makes
this work is that no sample lacks both a backtrace and places, but for the one that is out for
symbolization.
-/

namespace HeapSampler

/-! ## What an answer brings -/

namespace Suspended

def out? : Suspended → Option Handle
  | symbolizing _ handle _ _ => some handle
  | measuring .. | capturing _ _ | subscribing | unsubscribing => none

def unsymbolized : Suspended → List Handle
  | symbolizing _ handle _ rest => handle :: rest
  | measuring .. | capturing _ _ | subscribing | unsubscribing => []

def unmeasured : Suspended → List Handle
  | symbolizing cycle _ _ _ => cycle.snapshot
  | measuring _ _ handle _ rest => handle :: rest
  | capturing _ _ | subscribing | unsubscribing => []

def measures? : Suspended → Option Handle
  | measuring _ _ handle _ _ => some handle
  | symbolizing .. | capturing _ _ | subscribing | unsubscribing => none

/-- The sample that the host has no places for, and the backtrace it was asked about. -/
def unplaced? : (suspended : Suspended) → suspended.request.Answer → Option (Handle × Backtrace)
  | symbolizing _ handle backtrace _, answer =>
      match answer with
      | .error _ => some (handle, backtrace)
      | .ok _ => none
  | measuring .., _ | capturing _ _, _ | subscribing, _ | unsubscribing, _ => none

def unmeasurable? : (suspended : Suspended) → suspended.request.Answer → Option Handle
  | measuring _ _ handle _ _, answer =>
      match answer with
      | none => some handle
      | some _ => none
  | symbolizing .., _ | capturing _ _, _ | subscribing, _ | unsubscribing, _ => none

end Suspended

namespace Progress

def unmeasured : Progress → List Handle
  | waiting suspended => suspended.unmeasured
  | replied _ => []

end Progress

namespace Collector

def sized? (collector : Collector) : (suspended : Suspended) → suspended.request.Answer →
    Option (Handle × UInt64)
  | .measuring _ _ handle _ _, answer =>
      match collector.store.sample? handle, answer with
      | some sample, some size => if sample.isReleased then none else some (handle, size)
      | _, _ => none
  | .symbolizing .., _ | .capturing _ _, _ | .subscribing, _ | .unsubscribing, _ => none

theorem map_sized? (collector : Collector) (suspended : Suspended)
    (answer : suspended.request.Answer) :
    (collector.sized? suspended answer).map Prod.fst = collector.measured? suspended answer := by
  cases suspended with
  | measuring cycle included handle identity rest =>
      cases found : collector.store.sample? handle with
      | none => simp [sized?, measured?, found]
      | some sample =>
          cases answer with
          | none => simp [sized?, measured?, found]
          | some size =>
              cases released : sample.isReleased with
              | false => simp [sized?, measured?, found, released]
              | true => simp [sized?, measured?, found, released]
  | symbolizing => rfl
  | capturing => rfl
  | subscribing => rfl
  | unsubscribing => rfl

def hasReleased (collector : Collector) (handle : Handle) : Bool :=
  (collector.store.sample? handle).any Sample.isReleased

/-! ## Samples without a backtrace -/

/-- Only a sample that is out for symbolization has neither a backtrace nor places. -/
def Backed (collector : Collector) (out : List Handle) : Prop :=
  ∀ handle sample, collector.store.sample? handle = some sample → sample.isSymbolized = false →
    sample.backtrace = none → handle ∈ out

variable {collector after : Collector} {out held snapshot rest : List Handle} {handle : Handle}
  {sample : Sample} {cycle : Cycle} {included : List Handle} {progress : Progress}

theorem Backed.passes (backed : collector.Backed out) (passed : collector.Passes after held) :
    after.Backed out := by
  intro handle sample found unsymbolized missing
  rcases passed.descends handle sample found with ⟨old, before, ages⟩ | ⟨_, _, _, rfl⟩
  · exact backed handle old before (ages.symbolized_eq.symm.trans unsymbolized)
      (ages.backtrace_eq.symm.trans missing)
  · cases missing

theorem Backed.change (backed : collector.Backed out) {out' : List Handle}
    (reads : ∀ other, after.store.sample? other =
      if other = handle then some sample else collector.store.sample? other)
    (fits : sample.isSymbolized = false → sample.backtrace = none → handle ∈ out')
    (remains : ∀ other ∈ out, other ≠ handle → other ∈ out') : after.Backed out' := by
  intro other own found unsymbolized missing
  rw [reads] at found
  split at found
  · rename_i same
    cases found
    exact same ▸ fits unsymbolized missing
  · rename_i apart
    exact remains other (backed other own found unsymbolized missing) apart

theorem Finishes.survives (finished : Finishes collector cycle included after progress)
    (balanced : collector.inventory.Balanced [] cycle.snapshot []) {handle : Handle}
    {sample : Sample} (found : after.store.sample? handle = some sample) :
    ∃ old, collector.store.sample? handle = some old ∧ old.Ages sample := by
  rw [← List.append_nil cycle.snapshot] at balanced
  obtain ⟨inventory, released', -, -, aged⟩ := balanced.releaseSnapshot
  cases finished with
  | exported encoded released =>
      cases released.symm.trans released'
      exact aged.survives found
  | failed encoded released =>
      cases released.symm.trans released'
      exact aged.survives found

theorem Backed.finishes (backed : collector.Backed out)
    (finished : Finishes collector cycle included after progress)
    (balanced : collector.inventory.Balanced [] cycle.snapshot []) : after.Backed out := by
  intro handle sample found unsymbolized missing
  obtain ⟨old, before, ages⟩ := finished.survives balanced found
  exact backed handle old before (ages.symbolized_eq.symm.trans unsymbolized)
    (ages.backtrace_eq.symm.trans missing)

/-! ## The lists of a flush -/

/-- What has been noted, the latest in front, is about samples in front of those that are left. -/
def Noted {α : Type} (snapshot : List Handle) (noted : List (Handle × α)) (left : List Handle) :
    Prop :=
  ∃ passed, snapshot = passed ++ left ∧ (noted.map Prod.fst).reverse.Sublist passed

namespace Noted

variable {α : Type} {noted : List (Handle × α)} {passed left : List Handle}

theorem pass (notes : Noted snapshot noted (passed ++ left)) : Noted snapshot noted left := by
  obtain ⟨front, split, ordered⟩ := notes
  exact ⟨front ++ passed, by rw [split, List.append_assoc],
    ordered.trans (List.sublist_append_left _ _)⟩

theorem add (notes : Noted snapshot noted (handle :: left)) (value : α) :
    Noted snapshot ((handle, value) :: noted) left := by
  obtain ⟨front, split, ordered⟩ := notes
  refine ⟨front ++ [handle], by simp [split], ?_⟩
  rw [List.map_cons, List.reverse_cons]
  exact ordered.append (List.Sublist.refl _)

theorem left_subset (notes : Noted snapshot noted left) : left ⊆ snapshot := by
  obtain ⟨front, rfl, -⟩ := notes
  exact List.subset_append_right _ _

theorem sublist (notes : Noted snapshot noted left) :
    (noted.map Prod.fst).reverse.Sublist snapshot := by
  obtain ⟨front, rfl, ordered⟩ := notes
  exact ordered.trans (List.sublist_append_left _ _)

theorem mem_snapshot (notes : Noted snapshot noted left) {entry : Handle × α}
    (listed : entry ∈ noted) : entry.1 ∈ snapshot :=
  notes.sublist.subset (List.mem_reverse.mpr (List.mem_map_of_mem listed))

theorem nodup (notes : Noted snapshot noted left) (distinct : snapshot.Nodup) :
    (noted.map Prod.fst).Nodup :=
  List.nodup_reverse.mp (notes.sublist.nodup distinct)

theorem not_mem (notes : Noted snapshot noted left) (distinct : snapshot.Nodup)
    (remains : handle ∈ left) : handle ∉ noted.map Prod.fst := by
  obtain ⟨front, rfl, ordered⟩ := notes
  intro listed
  exact List.disjoint_of_nodup_append distinct
    (ordered.subset (List.mem_reverse.mpr listed)) remains

end Noted

/-! ## How far a flush has got -/

def Skips (collector : Collector) (entry : Handle × Backtrace) : Prop :=
  ∃ sample, collector.store.sample? entry.1 = some sample ∧ sample.isSymbolized = false ∧
    sample.backtrace = some entry.2

def Sizes (collector : Collector) (entry : Handle × UInt64) : Prop :=
  ∃ sample, collector.store.sample? entry.1 = some sample ∧ sample.isSymbolized = true ∧
    sample.size = some entry.2

def Passed (collector : Collector) (handle : Handle) : Prop :=
  ∃ sample, collector.store.sample? handle = some sample ∧
    (sample.isReleased = true ∨ sample.isSymbolized = true)

/-- Every sample of the snapshot is accounted for, or its turn is still to come. -/
structure Accounts (collector : Collector) (snapshot : List Handle)
    (skipped : List (Handle × Backtrace)) (sized : List (Handle × UInt64))
    (unsymbolized unmeasured : List Handle) (Excused : Handle → Prop) : Prop where
  skipped_noted : Noted snapshot skipped unsymbolized
  sized_noted : Noted snapshot sized unmeasured
  skipped_kept : ∀ entry ∈ skipped, collector.Skips entry
  sized_kept : ∀ entry ∈ sized, collector.Sizes entry
  attempted : ∀ handle ∈ snapshot, handle ∉ unsymbolized →
    handle ∈ skipped.map Prod.fst ∨ collector.Passed handle
  concluded : ∀ handle ∈ snapshot, handle ∉ unmeasured →
    handle ∈ sized.map Prod.fst ∨ handle ∈ skipped.map Prod.fst ∨ Excused handle

namespace Accounts

variable {skipped : List (Handle × Backtrace)} {sized : List (Handle × UInt64)}
  {unsymbolized unmeasured passed : List Handle} {Excused Excused' : Handle → Prop}
  {backtrace : Backtrace} {size : UInt64}

theorem mono (accounts : Accounts collector snapshot skipped sized unsymbolized unmeasured Excused)
    (more : ∀ handle, Excused handle → Excused' handle) :
    Accounts collector snapshot skipped sized unsymbolized unmeasured Excused' :=
  { accounts with
    concluded := fun handle owned past =>
      (accounts.concluded handle owned past).imp_right (.imp_right (more handle)) }

/-- Events only make the samples of the snapshot older. -/
theorem aged (accounts : Accounts collector snapshot skipped sized unsymbolized unmeasured Excused)
    (ages : ∀ handle ∈ snapshot, ∃ old sample, collector.store.sample? handle = some old ∧
      after.store.sample? handle = some sample ∧ old.Ages sample) :
    Accounts after snapshot skipped sized unsymbolized unmeasured Excused where
  skipped_noted := accounts.skipped_noted
  sized_noted := accounts.sized_noted
  skipped_kept entry listed := by
    obtain ⟨own, found, unsymbolized, present⟩ := accounts.skipped_kept entry listed
    obtain ⟨old, sample, before, now, older⟩ :=
      ages entry.1 (accounts.skipped_noted.mem_snapshot listed)
    cases found.symm.trans before
    exact ⟨sample, now, older.symbolized_eq.trans unsymbolized, older.backtrace_eq.trans present⟩
  sized_kept entry listed := by
    obtain ⟨own, found, symbolized, sized⟩ := accounts.sized_kept entry listed
    obtain ⟨old, sample, before, now, older⟩ :=
      ages entry.1 (accounts.sized_noted.mem_snapshot listed)
    cases found.symm.trans before
    exact ⟨sample, now, older.symbolized_eq.trans symbolized, older.size_eq.trans sized⟩
  attempted handle owned past := by
    refine (accounts.attempted handle owned past).imp_right ?_
    rintro ⟨own, found, settled⟩
    obtain ⟨old, sample, before, now, older⟩ := ages handle owned
    cases found.symm.trans before
    exact ⟨sample, now, settled.imp older.stays_released older.symbolized_eq.trans⟩
  concluded := accounts.concluded

/-- The flush itself changes a sample that it has not noted yet. -/
theorem change
    (accounts : Accounts collector snapshot skipped sized unsymbolized unmeasured Excused)
    (reads : ∀ other, after.store.sample? other =
      if other = handle then some sample else collector.store.sample? other)
    (unskipped : handle ∉ skipped.map Prod.fst) (unsized : handle ∉ sized.map Prod.fst)
    (due : handle ∈ unsymbolized ∨ sample.isReleased = true ∨ sample.isSymbolized = true) :
    Accounts after snapshot skipped sized unsymbolized unmeasured Excused where
  skipped_noted := accounts.skipped_noted
  sized_noted := accounts.sized_noted
  skipped_kept entry listed := by
    obtain ⟨own, found, kept⟩ := accounts.skipped_kept entry listed
    have apart : entry.1 ≠ handle := by
      rintro rfl
      exact unskipped (List.mem_map_of_mem listed)
    exact ⟨own, ((reads _).trans (if_neg apart)).trans found, kept⟩
  sized_kept entry listed := by
    obtain ⟨own, found, kept⟩ := accounts.sized_kept entry listed
    have apart : entry.1 ≠ handle := by
      rintro rfl
      exact unsized (List.mem_map_of_mem listed)
    exact ⟨own, ((reads _).trans (if_neg apart)).trans found, kept⟩
  attempted other owned past := by
    by_cases same : other = handle
    · subst same
      exact .inr ⟨sample, (reads _).trans (if_pos rfl), due.resolve_left past⟩
    · refine (accounts.attempted other owned past).imp_right ?_
      rintro ⟨own, found, settled⟩
      exact ⟨own, ((reads _).trans (if_neg same)).trans found, settled⟩
  concluded := accounts.concluded

theorem pass (accounts : Accounts collector snapshot skipped sized (passed ++ unsymbolized)
      unmeasured Excused) (settled : ∀ other ∈ passed, collector.Passed other) :
    Accounts collector snapshot skipped sized unsymbolized unmeasured Excused :=
  { accounts with
    skipped_noted := accounts.skipped_noted.pass
    attempted := fun handle owned past => by
      by_cases inside : handle ∈ passed
      · exact .inr (settled handle inside)
      · refine accounts.attempted handle owned fun listed => ?_
        exact (List.mem_append.mp listed).elim inside past }

theorem skip (accounts : Accounts collector snapshot skipped sized (handle :: unsymbolized)
      unmeasured Excused) (kept : collector.Skips (handle, backtrace)) :
    Accounts collector snapshot ((handle, backtrace) :: skipped) sized unsymbolized unmeasured
      Excused where
  skipped_noted := accounts.skipped_noted.add backtrace
  sized_noted := accounts.sized_noted
  skipped_kept := List.forall_mem_cons.mpr ⟨kept, accounts.skipped_kept⟩
  sized_kept := accounts.sized_kept
  attempted other owned past := by
    by_cases same : other = handle
    · exact .inl (same ▸ List.mem_cons_self ..)
    · refine (accounts.attempted other owned ?_).imp_left (List.mem_cons_of_mem _)
      exact List.not_mem_cons_of_ne_of_not_mem same past
  concluded other owned past :=
    (accounts.concluded other owned past).imp_right (.imp_left (List.mem_cons_of_mem _))

/-- The turn of some samples is over. -/
theorem conclude (accounts : Accounts collector snapshot skipped sized unsymbolized
      (passed ++ unmeasured) Excused)
    (past : ∀ other ∈ passed, other ∈ skipped.map Prod.fst ∨ Excused other) :
    Accounts collector snapshot skipped sized unsymbolized unmeasured Excused :=
  { accounts with
    sized_noted := accounts.sized_noted.pass
    concluded := fun handle owned unlisted => by
      by_cases inside : handle ∈ passed
      · exact .inr (past handle inside)
      · refine accounts.concluded handle owned fun listed => ?_
        exact (List.mem_append.mp listed).elim inside unlisted }

theorem measure (accounts : Accounts collector snapshot skipped sized unsymbolized
      (handle :: unmeasured) Excused) (kept : collector.Sizes (handle, size)) :
    Accounts collector snapshot skipped ((handle, size) :: sized) unsymbolized unmeasured
      Excused where
  skipped_noted := accounts.skipped_noted
  sized_noted := accounts.sized_noted.add size
  skipped_kept := accounts.skipped_kept
  sized_kept := List.forall_mem_cons.mpr ⟨kept, accounts.sized_kept⟩
  attempted := accounts.attempted
  concluded other owned past := by
    by_cases same : other = handle
    · exact .inl (same ▸ List.mem_cons_self ..)
    · refine (accounts.concluded other owned ?_).imp_left (List.mem_cons_of_mem _)
      exact List.not_mem_cons_of_ne_of_not_mem same past

end Accounts

/-! ## Stretches of a flush -/

section Stretches

variable {skipped : List (Handle × Backtrace)} {sized : List (Handle × UInt64)}
  {Excused : Handle → Prop} {backtrace : Backtrace} {old : Sample} {other : Handle}

/-- A waiting flush has counted what it skipped, and each sample is accounted for so far. -/
structure Pending (collector : Collector) (snapshot : List Handle)
    (skipped : List (Handle × Backtrace)) (sized : List (Handle × UInt64))
    (Excused : Handle → Prop) (suspended : Suspended) (cycle : Cycle) : Prop where
  snapshot_eq : cycle.snapshot = snapshot
  counted : cycle.skipped = skipped.length
  accounts : Accounts collector snapshot skipped sized suspended.unsymbolized suspended.unmeasured
    Excused
  /-- The sample whose object is being measured has its places. -/
  placed : ∀ handle, suspended.measures? = some handle →
    ∃ sample, collector.store.sample? handle = some sample ∧ sample.isSymbolized = true

/-- What a stretch of a flush leaves to the next one, or has given to the encoder. -/
def Conducts (snapshot : List Handle) (skipped : List (Handle × Backtrace))
    (sized : List (Handle × UInt64)) (Excused : Handle → Prop) (after : Collector) :
    Progress → Prop
  | .waiting suspended =>
      after.Backed suspended.out?.toList ∧ ∃ cycle, suspended.cycle? = some cycle ∧
        Pending after snapshot skipped sized Excused suspended cycle
  | .replied reply =>
      after.Backed [] ∧ ∃ encoding cycle, cycle.snapshot = snapshot ∧
        cycle.skipped = skipped.length ∧ encoding.inventory.Balanced [] snapshot [] ∧
        Accounts encoding snapshot skipped sized [] [] Excused ∧
        Finishes encoding cycle (sized.map Prod.fst).reverse after (.replied reply)

structure Prepared (collector : Collector) (cycle : Cycle) (skipped : List (Handle × Backtrace)) :
    Prop where
  balanced : collector.inventory.Balanced [] cycle.snapshot []
  nodup : cycle.snapshot.Nodup
  backed : collector.Backed []
  counted : cycle.skipped = skipped.length

theorem hasReleased_eq (found : collector.store.sample? handle = some sample) :
    collector.hasReleased handle = sample.isReleased := by
  rw [hasReleased, found]
  rfl

/-- A change that releases nothing. -/
theorem hasReleased_of_reads (found : collector.store.sample? handle = some old)
    (reads : ∀ other, after.store.sample? other =
      if other = handle then some sample else collector.store.sample? other)
    (same : sample.isReleased = old.isReleased) :
    after.hasReleased other = collector.hasReleased other := by
  unfold hasReleased
  rw [reads]
  split
  · rename_i equal
    rw [equal, found, Option.any_some, Option.any_some, same]
  · rfl

/-- A sample with places that cannot be measured has no identity any more. -/
theorem hasReleased_of_unmeasurable (balanced : collector.inventory.Balanced [] held [])
    (found : collector.store.sample? handle = some sample) (symbolized : sample.isSymbolized = true)
    (unmeasurable : collector.measurable? handle = none) : collector.hasReleased handle = true := by
  rw [hasReleased_eq found, balanced.released_iff found, List.append_nil]
  -- A live sample has its identity, and with places it would be measured.
  intro listed
  obtain ⟨⟨identity, own⟩, live, rfl⟩ := List.mem_map.mp listed
  have named := balanced.identity_eq live found
  simp [measurable?, found, symbolized, named] at unmeasurable

theorem Backed.passed (backed : collector.Backed []) (settled : collector.Settled handle) :
    collector.Passed handle := by
  obtain ⟨sample, found, missing | done⟩ := settled
  · cases symbolized : sample.isSymbolized with
    | true => exact ⟨sample, found, .inr symbolized⟩
    | false => exact absurd (backed handle sample found symbolized missing) List.not_mem_nil
  · exact ⟨sample, found, done⟩

/-- A sample that has its turn and is not measured has been skipped or is released. -/
theorem Accounts.skipped_or_released {unmeasured : List Handle}
    (accounts : Accounts collector snapshot skipped sized [] unmeasured Excused)
    (balanced : collector.inventory.Balanced [] held []) (owned : handle ∈ snapshot)
    (unmeasurable : collector.measurable? handle = none) :
    handle ∈ skipped.map Prod.fst ∨ collector.hasReleased handle = true := by
  refine (accounts.attempted handle owned List.not_mem_nil).imp_right ?_
  rintro ⟨sample, found, released | symbolized⟩
  · exact (hasReleased_eq found).trans released
  · exact hasReleased_of_unmeasurable balanced found symbolized unmeasurable

theorem Finishes.exists_reply (finished : Finishes collector cycle included after progress) :
    ∃ reply, progress = .replied reply := by
  cases finished with
  | exported => exact ⟨_, rfl⟩
  | failed => exact ⟨_, rfl⟩

theorem MeasuresNext.unmeasured_subset
    (next : MeasuresNext collector cycle included rest after progress) :
    progress.unmeasured ⊆ rest := by
  cases next with
  | waits passed none_before found => exact List.subset_append_right _ _
  | finishes none_left finished =>
      obtain ⟨reply, rfl⟩ := (Collector.finishes finished).exists_reply
      exact List.nil_subset _

theorem MeasuresNext.conducts (next : MeasuresNext collector cycle included rest after progress)
    (prepared : collector.Prepared cycle skipped)
    (accounts : Accounts collector cycle.snapshot skipped sized [] rest Excused)
    (included_eq : included = sized.map Prod.fst)
    (excuse : ∀ other ∈ rest, other ∉ progress.unmeasured →
      collector.hasReleased other = true → Excused other) :
    Conducts cycle.snapshot skipped sized Excused after progress := by
  have owned := accounts.sized_noted.left_subset
  cases next with
  | waits passed none_before found =>
      rename_i later handle identity
      have distinct : (passed ++ handle :: later).Nodup := by
        obtain ⟨front, split, -⟩ := accounts.sized_noted
        have nodup := prepared.nodup
        rw [split] at nodup
        exact nodup.of_append_right
      refine ⟨prepared.backed, cycle, rfl, rfl, prepared.counted,
        accounts.conclude fun other listed => ?_, fun asked same => ?_⟩
      · have inside := List.mem_append_left (handle :: later) listed
        refine (accounts.skipped_or_released prepared.balanced (owned inside)
          (none_before other listed)).imp_right (excuse other inside ?_)
        exact List.disjoint_of_nodup_append distinct listed
      · cases same
        unfold measurable? at found
        split at found
        · rename_i sample present
          split at found
          · rename_i symbolized
            exact ⟨sample, present, symbolized⟩
          · cases found
        · cases found
  | finishes none_left finished =>
      subst included_eq
      have ended := Collector.finishes finished
      obtain ⟨reply, rfl⟩ := ended.exists_reply
      rw [← List.append_nil rest] at accounts
      refine ⟨prepared.backed.finishes ended prepared.balanced, collector, cycle, rfl,
        prepared.counted, prepared.balanced, accounts.conclude fun other listed => ?_, ended⟩
      have inside := List.mem_append_left [] listed
      exact (accounts.skipped_or_released prepared.balanced (owned listed)
        (none_left other listed)).imp_right (excuse other listed List.not_mem_nil)

theorem SymbolizesNext.conducts (next : SymbolizesNext collector cycle rest after progress)
    (prepared : collector.Prepared cycle skipped)
    (accounts : Accounts collector cycle.snapshot skipped [] rest cycle.snapshot Excused)
    (excuse : ∀ other ∈ cycle.snapshot, other ∉ progress.unmeasured →
      collector.hasReleased other = true → Excused other) :
    Conducts cycle.snapshot skipped [] Excused after progress := by
  cases next with
  | waits passed settled found present unreleased unsymbolized modified =>
      rename_i later handle backtrace sample store
      obtain ⟨arena, modified', reads, -⟩ :=
        prepared.balanced.touch Sample.withoutBacktrace found rfl rfl (.inr rfl) rfl rfl
      cases modified.symm.trans modified'
      have passed_accounts := accounts.pass fun other listed =>
        prepared.backed.passed (settled other listed)
      -- The sample that goes out loses its backtrace, so it must not be one that was skipped.
      have unskipped :=
        passed_accounts.skipped_noted.not_mem prepared.nodup (List.mem_cons_self ..)
      refine ⟨prepared.backed.change reads (fun _ _ => List.mem_cons_self ..) fun _ listed => ?_,
        cycle, rfl, rfl, prepared.counted, ?_, fun _ same => nomatch same⟩
      · cases listed
      · exact passed_accounts.change reads unskipped List.not_mem_nil (.inl (List.mem_cons_self ..))
  | measures settled next =>
      rw [← List.append_nil rest] at accounts
      exact next.conducts prepared
        (accounts.pass fun other listed => prepared.backed.passed (settled other listed)) rfl excuse

/-- No sample of a flush that begins is released. -/
theorem conducts_of_flush {clock : Clock} (Excused : Handle → Prop)
    (idle : collector.flushing = false) (balanced : collector.inventory.Balanced [] [] [])
    (backed : collector.Backed []) (went : collector.flush clock = .ok (after, progress)) :
    Conducts (collector.store.live.map Prod.snd) [] [] Excused after progress := by
  obtain ⟨arena, begun, reads, balanced'⟩ := flush_of_idle idle balanced clock
  have nodup := balanced.handles_nodup
  rw [List.append_nil] at nodup
  refine (symbolizesNext (begun.symm.trans went)).conducts ⟨balanced', nodup, ?_, rfl⟩ ?_ ?_
  · intro handle sample found
    exact backed handle sample ((reads handle).symm.trans found)
  · exact {
      skipped_noted := ⟨[], rfl, .refl _⟩
      sized_noted := ⟨[], rfl, .refl _⟩
      skipped_kept := List.forall_mem_nil _
      sized_kept := List.forall_mem_nil _
      attempted := fun _ owned past => absurd owned past
      concluded := fun _ owned past => absurd owned past }
  · intro other owned _ released
    obtain ⟨sample, found, gone⟩ := Option.any_eq_true _ _ |>.mp released
    have unlisted := (balanced'.released_iff found).mp gone
    rw [List.append_nil] at unlisted
    exact absurd owned unlisted

theorem Pending.skips {next : Collector}
    (pending : Pending collector cycle.snapshot skipped [] Excused
      (.symbolizing cycle handle backtrace rest) cycle)
    (nodup : cycle.snapshot.Nodup) (backed : collector.Backed [handle])
    (found : collector.store.sample? handle = some old) (unsymbolized : old.isSymbolized = false)
    (went : next.symbolizeFrom { cycle with skipped := cycle.skipped + 1 } rest =
      .ok (after, progress))
    (reads : ∀ other, next.store.sample? other =
      if other = handle then some (old.withBacktrace backtrace) else collector.store.sample? other)
    (balanced : next.inventory.Balanced [] cycle.snapshot [])
    (excuse : ∀ other ∈ cycle.snapshot, other ∉ progress.unmeasured →
      collector.hasReleased other = true → Excused other) :
    Conducts cycle.snapshot ((handle, backtrace) :: skipped) [] Excused after progress := by
  have accounts : Accounts collector cycle.snapshot skipped [] (handle :: rest) cycle.snapshot
    Excused := pending.accounts
  have unskipped := accounts.skipped_noted.not_mem nodup (List.mem_cons_self ..)
  have changed :=
    accounts.change reads unskipped List.not_mem_nil (.inl (List.mem_cons_self ..))
  have kept : next.Skips (handle, backtrace) :=
    ⟨_, (reads handle).trans (if_pos rfl), unsymbolized, rfl⟩
  have prepared : next.Prepared { cycle with skipped := cycle.skipped + 1 }
      ((handle, backtrace) :: skipped) := by
    refine ⟨balanced, nodup, ?_, congrArg (· + 1) pending.counted⟩
    exact backed.change reads (fun _ missing => nomatch missing) fun other listed apart =>
      absurd (List.mem_singleton.mp listed) apart
  refine (symbolizesNext went).conducts prepared (changed.skip kept) fun other owned past gone => ?_
  rw [hasReleased_of_reads found reads rfl] at gone
  exact excuse other owned past gone

theorem Pending.symbolizes {next : Collector} {locations : List LocationId}
    (pending : Pending collector cycle.snapshot skipped [] Excused
      (.symbolizing cycle handle backtrace rest) cycle)
    (nodup : cycle.snapshot.Nodup) (backed : collector.Backed [handle])
    (found : collector.store.sample? handle = some old)
    (went : next.symbolizeFrom cycle rest = .ok (after, progress))
    (reads : ∀ other, next.store.sample? other =
      if other = handle then some (old.symbolized locations) else collector.store.sample? other)
    (balanced : next.inventory.Balanced [] cycle.snapshot [])
    (excuse : ∀ other ∈ cycle.snapshot, other ∉ progress.unmeasured →
      collector.hasReleased other = true → Excused other) :
    Conducts cycle.snapshot skipped [] Excused after progress := by
  have accounts : Accounts collector cycle.snapshot skipped [] (handle :: rest) cycle.snapshot
    Excused := pending.accounts
  have unskipped := accounts.skipped_noted.not_mem nodup (List.mem_cons_self ..)
  have changed :
      Accounts next cycle.snapshot skipped [] ([handle] ++ rest) cycle.snapshot Excused :=
    accounts.change reads unskipped List.not_mem_nil (.inl (List.mem_cons_self ..))
  have prepared : next.Prepared cycle skipped := by
    refine ⟨balanced, nodup, ?_, pending.counted⟩
    exact backed.change reads (fun plain => nomatch plain) fun other listed apart =>
      absurd (List.mem_singleton.mp listed) apart
  refine (symbolizesNext went).conducts prepared (changed.pass fun other listed => ?_)
    fun other owned past gone => ?_
  · cases List.mem_singleton.mp listed
    exact ⟨_, (reads handle).trans (if_pos rfl), .inr rfl⟩
  · rw [hasReleased_of_reads found reads rfl] at gone
    exact excuse other owned past gone

theorem Pending.measures {next : Collector} {identity : Identity} {size : UInt64}
    (pending : Pending collector cycle.snapshot skipped sized Excused
      (.measuring cycle included handle identity rest) cycle)
    (included_eq : included = sized.map Prod.fst) (nodup : cycle.snapshot.Nodup)
    (backed : collector.Backed []) (found : collector.store.sample? handle = some old)
    (went : next.measureFrom cycle (handle :: included) rest = .ok (after, progress))
    (reads : ∀ other, next.store.sample? other =
      if other = handle then some (old.measured size) else collector.store.sample? other)
    (balanced : next.inventory.Balanced [] cycle.snapshot [])
    (excuse : ∀ other ∈ rest, other ∉ progress.unmeasured →
      collector.hasReleased other = true → Excused other) :
    Conducts cycle.snapshot skipped ((handle, size) :: sized) Excused after progress := by
  have accounts : Accounts collector cycle.snapshot skipped sized [] (handle :: rest)
    Excused := pending.accounts
  obtain ⟨own, present, symbolized⟩ := pending.placed handle rfl
  cases found.symm.trans present
  have unsized := accounts.sized_noted.not_mem nodup (List.mem_cons_self ..)
  have unskipped : handle ∉ skipped.map Prod.fst := by
    intro listed
    obtain ⟨entry, inside, rfl⟩ := List.mem_map.mp listed
    obtain ⟨sample, kept, unsymbolized, -⟩ := accounts.skipped_kept entry inside
    cases found.symm.trans kept
    rw [symbolized] at unsymbolized
    cases unsymbolized
  have changed := accounts.change reads unskipped unsized (.inr (.inr symbolized))
  have kept : next.Sizes (handle, size) :=
    ⟨_, (reads handle).trans (if_pos rfl), symbolized, rfl⟩
  have prepared : next.Prepared cycle skipped := by
    refine ⟨balanced, nodup, ?_, pending.counted⟩
    refine backed.change reads (fun plain => ?_) (List.forall_mem_nil _)
    change old.isSymbolized = false at plain
    rw [symbolized] at plain
    cases plain
  refine (measuresNext went).conducts prepared (changed.measure kept)
    (congrArg (handle :: ·) included_eq) fun other owned past gone => ?_
  rw [hasReleased_of_reads found reads rfl] at gone
  exact excuse other owned past gone

theorem Pending.passes_over {identity : Identity}
    (pending : Pending collector cycle.snapshot skipped sized Excused
      (.measuring cycle included handle identity rest) cycle)
    (included_eq : included = sized.map Prod.fst) (nodup : cycle.snapshot.Nodup)
    (balanced : collector.inventory.Balanced [] cycle.snapshot []) (backed : collector.Backed [])
    (went : collector.measureFrom cycle included rest = .ok (after, progress))
    (excused : Excused handle)
    (excuse : ∀ other ∈ rest, other ∉ progress.unmeasured →
      collector.hasReleased other = true → Excused other) :
    Conducts cycle.snapshot skipped sized Excused after progress := by
  have accounts : Accounts collector cycle.snapshot skipped sized [] ([handle] ++ rest)
    Excused := pending.accounts
  refine (measuresNext went).conducts ⟨balanced, nodup, backed, pending.counted⟩
    (accounts.conclude fun other listed => ?_) included_eq excuse
  cases List.mem_singleton.mp listed
  exact .inr excused

theorem conducts_of_resumeSymbolize {answer : Except SymbolizationError (List NamedPlace)}
    (balanced : collector.inventory.Balanced [] cycle.snapshot [])
    (sound : Suspended.Sound collector.inventory (.symbolizing cycle handle backtrace rest))
    (backed : collector.Backed [handle])
    (pending : Pending collector cycle.snapshot skipped [] Excused
      (.symbolizing cycle handle backtrace rest) cycle)
    (went : collector.resumeSymbolize cycle handle backtrace rest answer = .ok (after, progress))
    (excuse : ∀ other ∈ cycle.snapshot, other ∉ progress.unmeasured →
      collector.hasReleased other = true → Excused other) :
    Conducts cycle.snapshot
      (((Suspended.symbolizing cycle handle backtrace rest).unplaced? answer).toList ++ skipped) []
      Excused after progress := by
  obtain ⟨nodup, -, sample, found, unsymbolized⟩ := sound
  cases answer with
  | error cause =>
      obtain ⟨arena, resumed, reads, balanced'⟩ :=
        resumeSymbolize_of_error balanced found backtrace rest cause
      exact pending.skips nodup backed found unsymbolized (resumed.symm.trans went) reads balanced'
        excuse
  | ok places =>
      rcases resumeSymbolize_of_places balanced found unsymbolized backtrace rest places with
        ⟨cause, -, refused⟩ | ⟨tables, locations, arena, -, resumed, reads, balanced'⟩
      · cases refused.symm.trans went
      · exact pending.symbolizes nodup backed found (resumed.symm.trans went) reads balanced' excuse

theorem conducts_of_resumeMeasure {identity : Identity} {answer : Option UInt64}
    (balanced : collector.inventory.Balanced [] cycle.snapshot [])
    (sound : Suspended.Sound collector.inventory
      (.measuring cycle included handle identity rest))
    (backed : collector.Backed [])
    (pending : Pending collector cycle.snapshot skipped sized Excused
      (.measuring cycle included handle identity rest) cycle)
    (included_eq : included = sized.map Prod.fst)
    (went : collector.resumeMeasure cycle included handle rest answer = .ok (after, progress))
    (excuse : ∀ other ∈ handle :: rest, other ∉ progress.unmeasured →
      collector.hasReleased other = true ∨
        (Suspended.measuring cycle included handle identity rest).unmeasurable? answer =
          some other → Excused other) :
    Conducts cycle.snapshot skipped
      ((collector.sized? (.measuring cycle included handle identity rest) answer).toList ++ sized)
      Excused after progress := by
  obtain ⟨nodup, passed, split, -⟩ := sound
  obtain ⟨sample, found⟩ := balanced.exists_sample_iff.mpr
    (show handle ∈ _ from List.mem_append_right _ (split ▸ by simp))
  have later (other : Handle) (owned : other ∈ rest) (past : other ∉ progress.unmeasured)
      (gone : collector.hasReleased other = true) : Excused other :=
    excuse other (List.mem_cons_of_mem _ owned) past (.inl gone)
  -- The snapshot has a handle once, so this one is not among those that are left.
  have excused (ended : progress.unmeasured ⊆ rest) := by
    refine excuse handle (List.mem_cons_self ..) fun listed => ?_
    rw [split] at nodup
    exact (List.nodup_cons.mp nodup.of_append_right).1 (ended listed)
  have found' : collector.store.sample? handle = some sample := found
  cases answer with
  | none =>
      simp only [resumeMeasure, found'] at went
      simp only [sized?, found', Option.toList_none, List.nil_append]
      exact pending.passes_over included_eq nodup balanced backed went
        (excused (measuresNext went).unmeasured_subset (.inr rfl)) later
  | some size =>
      cases released : sample.isReleased with
      | true =>
          simp only [resumeMeasure, found', released, if_true] at went
          simp only [sized?, found', released, if_true, Option.toList_none, List.nil_append]
          exact pending.passes_over included_eq nodup balanced backed went
            (excused (measuresNext went).unmeasured_subset
              (.inl ((hasReleased_eq found).trans released))) later
      | false =>
          obtain ⟨arena, resumed, reads, balanced'⟩ :=
            resumeMeasure_of_size balanced found released included rest size
          simp only [sized?, found', released, Bool.false_eq_true, if_false, Option.toList_some,
            List.singleton_append]
          exact pending.measures included_eq nodup backed found (resumed.symm.trans went) reads
            balanced' later

/-- The flush under way has its answer and goes on. -/
theorem conducts_of_resume {suspended : Suspended} {answer : suspended.request.Answer}
    (inside : suspended.cycle? = some cycle)
    (balanced : collector.inventory.Balanced [] cycle.snapshot [])
    (sound : suspended.Sound collector.inventory) (backed : collector.Backed suspended.out?.toList)
    (pending : Pending collector cycle.snapshot skipped sized Excused suspended cycle)
    (included_eq : suspended.included = sized.map Prod.fst)
    (went : collector.resume suspended answer = .ok (after, progress))
    (excuse : ∀ other ∈ suspended.unmeasured, other ∉ progress.unmeasured →
      collector.hasReleased other = true ∨ suspended.unmeasurable? answer = some other →
        Excused other) :
    Conducts cycle.snapshot ((suspended.unplaced? answer).toList ++ skipped)
      ((collector.sized? suspended answer).toList ++ sized) Excused after progress := by
  cases suspended with
  | symbolizing own handle backtrace rest =>
      cases inside
      obtain rfl : sized = [] := List.map_eq_nil_iff.mp included_eq.symm
      exact conducts_of_resumeSymbolize balanced sound backed pending went
        fun other owned past gone => excuse other owned past (.inl gone)
  | measuring own included handle identity rest =>
      cases inside
      exact conducts_of_resumeMeasure balanced sound backed pending included_eq went excuse
  | capturing => cases inside
  | subscribing => cases inside
  | unsubscribing => cases inside

theorem Pending.mono {suspended : Suspended} {Excused' : Handle → Prop}
    (pending : Pending collector snapshot skipped sized Excused suspended cycle)
    (more : ∀ handle, Excused handle → Excused' handle) :
    Pending collector snapshot skipped sized Excused' suspended cycle :=
  { pending with accounts := pending.accounts.mono more }

theorem Pending.aged {suspended : Suspended}
    (pending : Pending collector snapshot skipped sized Excused suspended cycle)
    (ages : ∀ handle ∈ snapshot, ∃ old sample, collector.store.sample? handle = some old ∧
      after.store.sample? handle = some sample ∧ old.Ages sample) :
    Pending after snapshot skipped sized Excused suspended cycle where
  snapshot_eq := pending.snapshot_eq
  counted := pending.counted
  accounts := pending.accounts.aged ages
  placed handle asked := by
    obtain ⟨own, found, symbolized⟩ := pending.placed handle asked
    have due : handle ∈ suspended.unmeasured := by
      cases suspended with
      | measuring =>
          cases asked
          exact List.mem_cons_self ..
      | symbolizing => cases asked
      | capturing => cases asked
      | subscribing => cases asked
      | unsubscribing => cases asked
    obtain ⟨old, sample, before, now, older⟩ :=
      ages handle (pending.accounts.sized_noted.left_subset due)
    cases found.symm.trans before
    exact ⟨sample, now, older.symbolized_eq.trans symbolized⟩

end Stretches

end Collector

end HeapSampler
