import Mathlib
import HeapSampler.Proofs.Collector.Exhaustion
import HeapSampler.Proofs.Collector.Exports
import HeapSampler.Proofs.Collector.Frame
import HeapSampler.Proofs.Collector.Standing
import HeapSampler.Proofs.Export.Content

/-!
# An undisturbed flush and the standing of its collector

A flush that is not disturbed changes nothing of how its collector stands but the pending drops, and
what it sends to be exported is told by that standing.
-/

namespace HeapSampler

def View.isFailing (view : View) : Bool := view.prospect = .failing

/-- What is exported of a sample, if it gets its places and the host has its size. -/
def View.content? (host : Host) (identity : Identity) (view : View) : Option Content :=
  match view.prospect with
  | .placed places =>
      (host.objectSize identity).map fun size => { tags := view.tags, places, size := some size }
  | .failing | .bare => none

namespace Standing

def contents (host : Host) (standing : Standing) : List Content :=
  standing.live.filterMap fun entry => entry.2.bind (View.content? host entry.1)

def failing (standing : Standing) : Nat :=
  standing.live.countP fun entry => entry.2.any View.isFailing

def flushed (standing : Standing) : Except EncodeError (List UInt8) → Standing
  | .ok _ => { standing with dropped := 0 }
  | .error _ => { standing with dropped := min standing.dropped Store.maxDropped }

def flushReply (host : Host) (standing : Standing) : Except EncodeError (List UInt8) → Reply
  | .ok bytes => .flushed (.ok {
      bytes
      sampleCount := (standing.contents host).length
      droppedCount := standing.dropped
      processedCount := standing.live.length
      skippedCount := standing.failing })
  | .error cause => .flushed (.error (.encodingFailure cause))

end Standing

def Sample.Tried (host : Host) (sample : Sample) : Prop :=
  sample.isSymbolized = true ∨
    ∀ backtrace, sample.backtrace = some backtrace →
      ∃ cause, host.symbolize backtrace = .error cause

variable {host : Host} {collector after : Collector} {cycle : Cycle} {included held : List Handle}
  {stack : Backtrace} {reply : Reply} {sample : Sample} {entry : Identity × Handle}

namespace Collector

/-- A flush has dealt with one of its samples, and everything stands as it did. -/
structure Visits (host : Host) (held : List Handle) (handle : Handle) (before after : Collector) :
    Prop where
  standing_eq : after.standing host = before.standing host
  live_eq : after.store.live = before.store.live
  reads : ∀ other, other ≠ handle → after.store.sample? other = before.store.sample? other
  balanced : after.inventory.Balanced [] held []

namespace Visits

variable {handle : Handle}

theorem refl (balanced : collector.inventory.Balanced [] held []) (handle : Handle) :
    Visits host held handle collector collector where
  standing_eq := rfl
  live_eq := rfl
  reads _ _ := rfl
  balanced := balanced

theorem of_change (balanced : collector.inventory.Balanced [] held [])
    {inventory : Inventory} (balanced' : inventory.Balanced [] held [])
    (maxSamples_eq : inventory.store.maxSamples = collector.store.maxSamples)
    (dropped_eq : inventory.store.dropped = collector.store.dropped)
    (live_eq : inventory.store.live = collector.store.live)
    (reads : ∀ other, other ≠ handle →
      inventory.store.sample? other = collector.store.sample? other)
    (extends_ : collector.tables.Extends inventory.tables)
    (here : inventory.view host handle = collector.inventory.view host handle) :
    Visits host held handle collector { collector with inventory } where
  standing_eq := by
    simp only [standing, Standing.mk.injEq, true_and]
    refine ⟨maxSamples_eq, dropped_eq, ?_⟩
    rw [show Collector.store { collector with inventory } = inventory.store from rfl, live_eq]
    refine List.map_congr_left fun entry listed => ?_
    by_cases same : entry.2 = handle
    · rw [same, here]
    · obtain ⟨own, found, -⟩ := balanced.exists_live_sample listed
      rw [(Inventory.preserves_of_extends found ((reads entry.2 same).trans found)
        extends_).view_eq balanced]
  live_eq := live_eq
  reads := reads
  balanced := balanced'

end Visits

theorem view_eq_of_standing_eq (standing_eq : after.standing host = collector.standing host)
    (live_eq : after.store.live = collector.store.live) (listed : entry ∈ collector.store.live) :
    after.inventory.view host entry.2 = collector.inventory.view host entry.2 := by
  have same := congrArg Standing.live standing_eq
  simp only [standing, live_eq, List.map_inj_left] at same
  exact congrArg Prod.snd (same entry listed)

def HasTried (host : Host) (collector : Collector) (handle : Handle) : Prop :=
  ∃ sample, collector.store.sample? handle = some sample ∧ sample.Tried host

def skips (host : Host) (collector : Collector) (entry : Identity × Handle) : Bool :=
  (collector.inventory.view host entry.2).any View.isFailing

def content? (host : Host) (collector : Collector) (entry : Identity × Handle) : Option Content :=
  (collector.inventory.view host entry.2).bind (View.content? host entry.1)

/-! ## Symbolizing -/

section Symbolizing

variable {handles : List Handle}

theorem skips_eq (found : collector.store.sample? entry.2 = some sample) :
    collector.skips host entry = (sample.view host collector.tables).isFailing := by
  rw [skips, Inventory.view, show collector.inventory.store.sample? entry.2 = _ from found]
  rfl

/-- A sample whose backtrace has no places gets it back. -/
theorem visits_of_unplaced {backtrace : Backtrace} {store : Store} {cause : SymbolizationError}
    (balanced : collector.inventory.Balanced [] held [])
    (found : collector.store.sample? entry.2 = some sample)
    (present : sample.backtrace = some backtrace) (unsymbolized : sample.isSymbolized = false)
    (taken : collector.store.modify entry.2 Sample.withoutBacktrace = .ok store)
    (answer : host.symbolize backtrace = .error cause)
    (went : driven { host with stack } ((collector.withStore store).resumeSymbolize cycle entry.2
      backtrace handles (.error cause)) = .ok (after, reply)) :
    collector.skips host entry = true ∧
      ∃ next, Visits host held entry.2 collector next ∧ next.HasTried host entry.2 ∧
        driven { host with stack } (next.symbolizeFrom
          { cycle with skipped := cycle.skipped + 1 } handles) = .ok (after, reply) := by
  obtain ⟨arena, taken', reads, -, -, balanced'⟩ :=
    balanced.touch Sample.withoutBacktrace found rfl rfl (.inr rfl) rfl rfl
  cases taken.symm.trans taken'
  have bare : arena.get? entry.2 = some sample.withoutBacktrace :=
    (reads entry.2).trans (if_pos rfl)
  obtain ⟨arena', (restored : Store.modify _ _ _ = _), reads', -, -, balanced''⟩ :=
    balanced'.touch (·.withBacktrace backtrace) bare rfl rfl (.inr rfl) rfl rfl
  have same : sample.withoutBacktrace.withBacktrace backtrace = sample := by
    rw [Sample.withoutBacktrace, Sample.withBacktrace, ← present]
  -- The backtrace was taken out and is put back, so every sample reads as it did.
  have all_read (other : Handle) : arena'.get? other = collector.store.sample? other := by
    rw [reads' other]
    by_cases here : other = entry.2
    · rw [if_pos here, same, here, found]
    · exact (if_neg here).trans ((reads other).trans (if_neg here))
  simp only [resumeSymbolize, withStore, store, restored] at went
  refine ⟨?_, _, .of_change balanced balanced'' rfl rfl rfl (fun other _ => all_read other)
    (.refl _) (congrArg (Option.map _) (all_read entry.2)),
    ⟨sample, (all_read _).trans found, .inr fun own own_present => ⟨cause, ?_⟩⟩, went⟩
  · rw [skips_eq found]
    simp [View.isFailing, Sample.view, Sample.prospect, unsymbolized, present, Host.prospect,
      answer]
  · cases present.symm.trans own_present
    exact answer

/-- The places of a backtrace go to its sample, which has had them in prospect. -/
theorem visits_of_places {backtrace : Backtrace} {store : Store} {places : List NamedPlace}
    (balanced : collector.inventory.Balanced [] held [])
    (found : collector.store.sample? entry.2 = some sample)
    (present : sample.backtrace = some backtrace) (unsymbolized : sample.isSymbolized = false)
    (taken : collector.store.modify entry.2 Sample.withoutBacktrace = .ok store)
    (answer : host.symbolize backtrace = .ok places)
    (went : driven { host with stack } ((collector.withStore store).resumeSymbolize cycle entry.2
      backtrace handles (.ok places)) = .ok (after, reply)) :
    collector.skips host entry = false ∧
      ∃ next, Visits host held entry.2 collector next ∧ next.HasTried host entry.2 ∧
        driven { host with stack } (next.symbolizeFrom cycle handles) = .ok (after, reply) := by
  obtain ⟨arena, taken', reads, -, -, balanced'⟩ :=
    balanced.touch Sample.withoutBacktrace found rfl rfl (.inr rfl) rfl rfl
  cases taken.symm.trans taken'
  have bare : arena.get? entry.2 = some sample.withoutBacktrace :=
    (reads entry.2).trans (if_pos rfl)
  simp only [resumeSymbolize, withStore, store, tables] at went
  split at went
  · cases went
  · rename_i interned_tables locations interned
    obtain ⟨counted, extends_, stands⟩ := balanced'.tables.intern_places interned
    obtain ⟨arena', (placed : Store.modify _ _ _ = _), reads', balanced''⟩ :=
      balanced'.symbolize bare unsymbolized counted
    simp only [placed, bind, Except.bind] at went
    have here : arena'.get? entry.2 = some (sample.withoutBacktrace.symbolized locations) :=
      (reads' entry.2).trans (if_pos rfl)
    have tags_eq : sample.tags.map interned_tables.tag? = sample.tags.map collector.tables.tag? :=
      map_eq_map_of_some (fun tag => balanced.exists_tag found)
        fun tag _ => extends_.tag?_keeps
    have prospect_eq : sample.prospect host collector.tables =
        .placed (locations.map interned_tables.place?) := by
      simp [Sample.prospect, unsymbolized, present, Host.prospect, answer, stands]
    have view_eq : (sample.withoutBacktrace.symbolized locations).view host interned_tables =
        sample.view host collector.tables := by
      rw [Sample.view, Sample.view, prospect_eq, ← tags_eq]
      rfl
    have view_before : collector.inventory.view host entry.2 =
        some (sample.view host collector.tables) := congrArg (Option.map _) found
    refine ⟨?_, _, .of_change balanced balanced'' rfl rfl rfl (fun other apart => ?_) extends_ ?_,
      ⟨_, here, .inl rfl⟩, went⟩
    · rw [skips_eq found]
      simp [View.isFailing, Sample.view, prospect_eq]
    · exact (reads' other).trans ((if_neg apart).trans ((reads other).trans (if_neg apart)))
    · rw [view_before, ← view_eq]
      exact congrArg (Option.map _) here

/-- A live sample that has no places yet is tried; the others are passed over. -/
theorem visits_of_symbolizeFrom (balanced : collector.inventory.Balanced [] held [])
    (listed : entry ∈ collector.store.live)
    (went : driven { host with stack } (collector.symbolizeFrom cycle (entry.2 :: handles)) =
      .ok (after, reply)) :
    ∃ next, Visits host held entry.2 collector next ∧
      next.HasTried host entry.2 ∧
      driven { host with stack } (next.symbolizeFrom
        { cycle with skipped := cycle.skipped + (collector.skips host entry).toNat } handles) =
          .ok (after, reply) := by
  obtain ⟨sample, found, -, unreleased⟩ := balanced.exists_live_sample listed
  have found' : collector.store.sample? entry.2 = some sample := found
  rcases symbolizeFrom_cases found' unreleased went with
    ⟨settled, went'⟩ | ⟨backtrace, store, present, unsymbolized, taken, went'⟩
  · have tried : sample.Tried host := by
      refine settled.symm.imp_right fun missing backtrace impossible => ?_
      rw [missing] at impossible
      cases impossible
    have unfailing : (sample.view host collector.tables).isFailing = false := by
      rcases settled with missing | symbolized
      · cases symbolized : sample.isSymbolized <;>
          simp [View.isFailing, Sample.view, Sample.prospect, symbolized, missing]
      · simp [View.isFailing, Sample.view, Sample.prospect, symbolized]
    refine ⟨collector, .refl balanced entry.2, ⟨sample, found', tried⟩, ?_⟩
    rw [skips_eq found', unfailing]
    exact went'
  · replace went' : driven { host with stack } ((collector.withStore store).resumeSymbolize cycle
        entry.2 backtrace handles (host.symbolize backtrace)) = .ok (after, reply) := went'
    cases answer : host.symbolize backtrace with
    | error cause =>
        rw [answer] at went'
        obtain ⟨skips, reached⟩ :=
          visits_of_unplaced balanced found' present unsymbolized taken answer went'
        rw [skips]
        exact reached
    | ok places =>
        rw [answer] at went'
        obtain ⟨skips, reached⟩ :=
          visits_of_places balanced found' present unsymbolized taken answer went'
        rw [skips]
        exact reached

/-- When a flush has gone through its snapshot, every live sample has been tried. -/
theorem exists_tried_of_symbolizeFrom {passed left : List (Identity × Handle)}
    (balanced : collector.inventory.Balanced [] held [])
    (live_eq : collector.store.live = passed ++ left)
    (tried : ∀ entry ∈ passed, collector.HasTried host entry.2)
    (went : driven { host with stack } (collector.symbolizeFrom cycle (left.map Prod.snd)) =
      .ok (after, reply)) :
    ∃ next : Collector, next.inventory.Balanced [] held [] ∧
      next.standing host = collector.standing host ∧
      next.store.live = collector.store.live ∧
      (∀ entry ∈ next.store.live, next.HasTried host entry.2) ∧
      driven { host with stack } (next.measureFrom
        { cycle with skipped := cycle.skipped + left.countP (collector.skips host) } []
          cycle.snapshot) = .ok (after, reply) := by
  -- By induction on the entries left: to visit the next one leaves those passed as they are.
  induction left generalizing collector cycle passed with
  | nil =>
      rw [List.append_nil] at live_eq
      exact ⟨collector, balanced, rfl, rfl, live_eq ▸ tried, went⟩
  | cons entry rest ih =>
      have listed : entry ∈ collector.store.live :=
        live_eq ▸ List.mem_append_right _ List.mem_cons_self
      have unpassed := (apart_of_live balanced live_eq).1
      obtain ⟨middle, visits, here, went'⟩ := visits_of_symbolizeFrom balanced listed went
      have tried' : ∀ other ∈ passed ++ [entry], middle.HasTried host other.2 := by
        refine List.forall_mem_append.mpr ⟨fun other member => ?_,
          List.forall_mem_singleton.mpr here⟩
        have apart : other.2 ≠ entry.2 := fun same => unpassed (same ▸ List.mem_map_of_mem member)
        rw [HasTried, visits.reads _ apart]
        exact tried other member
      obtain ⟨next, balanced', standing_eq, live_eq', all_tried, went''⟩ :=
        ih visits.balanced (by rw [visits.live_eq, live_eq, List.append_cons]) tried' went'
      refine ⟨next, balanced', standing_eq.trans visits.standing_eq, live_eq'.trans visits.live_eq,
        all_tried, ?_⟩
      have count_eq : rest.countP (middle.skips host) = rest.countP (collector.skips host) := by
        refine List.countP_congr fun other member => ?_
        have other_listed : other ∈ collector.store.live :=
          live_eq ▸ List.mem_append_right _ (List.mem_cons_of_mem _ member)
        rw [skips, skips, view_eq_of_standing_eq visits.standing_eq visits.live_eq other_listed]
      have skipped_eq : cycle.skipped + (entry :: rest).countP (collector.skips host) =
          cycle.skipped + (collector.skips host entry).toNat + rest.countP (middle.skips host) := by
        rw [count_eq, List.countP_cons, Nat.add_assoc, Nat.add_comm (rest.countP _)]
        cases collector.skips host entry <;> rfl
      rw [skipped_eq]
      exact went''

end Symbolizing

/-! ## Measuring -/

section Measuring

variable {handles : List Handle}

def Holds (collector : Collector) (content : Content) (handle : Handle) : Prop :=
  ∃ sample : Sample, sample.content collector.tables = content ∧
    collector.store.sample? handle = some sample

/-- A live sample that has its places is measured, and included if the host has its size. -/
theorem visits_of_measureFrom (balanced : collector.inventory.Balanced [] held [])
    (listed : entry ∈ collector.store.live) (tried : collector.HasTried host entry.2)
    (went : driven { host with stack } (collector.measureFrom cycle included (entry.2 :: handles)) =
      .ok (after, reply)) :
    ∃ next included', Visits host held entry.2 collector next ∧ next.tables = collector.tables ∧
      next.HasTried host entry.2 ∧
      (collector.content? host entry = none ∧ included' = included ∨
        ∃ content, collector.content? host entry = some content ∧
          included' = entry.2 :: included ∧ next.Holds content entry.2) ∧
      driven { host with stack } (next.measureFrom cycle included' handles) =
        .ok (after, reply) := by
  obtain ⟨sample, found, tried_own⟩ := id tried
  obtain ⟨own, own_found, identity_eq, unreleased⟩ := balanced.exists_live_sample listed
  cases found.symm.trans own_found
  have content_eq : collector.content? host entry =
      (sample.view host collector.tables).content? host entry.1 := by
    rw [content?, Inventory.view, show collector.inventory.store.sample? entry.2 = _ from found]
    rfl
  rcases measureFrom_cases found identity_eq unreleased went with
    ⟨lacks, went'⟩ | ⟨size, store, symbolized, (told : host.objectSize _ = _), taken, went'⟩
  · have nothing : collector.content? host entry = none := by
      cases symbolized : sample.isSymbolized with
      | true =>
          have untold : host.objectSize entry.1 = none := lacks.resolve_left (by simp [symbolized])
          simp [content_eq, View.content?, Sample.view, Sample.prospect, symbolized, untold]
      | false =>
          rw [content_eq, View.content?, Sample.view, Sample.prospect, symbolized]
          cases present : sample.backtrace with
          | none => rfl
          | some backtrace =>
              obtain ⟨cause, answer⟩ := tried_own.resolve_left (by simp [symbolized]) _ present
              simp [Host.prospect, answer]
    exact ⟨collector, included, .refl balanced _, rfl, tried, .inl ⟨nothing, rfl⟩, went'⟩
  · obtain ⟨arena, (measured : collector.store.modify _ _ = _), reads, -, -, balanced'⟩ :=
      balanced.touch (·.measured size) found rfl rfl (.inr rfl) rfl rfl
    cases taken.symm.trans measured
    have here : arena.get? entry.2 = some (sample.measured size) :=
      (reads entry.2).trans (if_pos rfl)
    have view_before : collector.inventory.view host entry.2 =
        some (sample.view host collector.tables) := congrArg (Option.map _) found
    have something : collector.content? host entry =
        some ((sample.measured size).content collector.tables) := by
      simp [content_eq, View.content?, Sample.view, Sample.prospect, symbolized, told,
        Sample.content, Sample.measured]
    refine ⟨_, _, .of_change balanced balanced' rfl rfl rfl
      (fun other apart => (reads other).trans (if_neg apart)) (.refl _) ?_, rfl,
      ⟨_, here, .inl symbolized⟩, .inr ⟨_, something, rfl, _, rfl, here⟩, went'⟩
    rw [view_before]
    exact congrArg (Option.map (Sample.view host collector.tables)) here

theorem Holds.visited {handle other : Handle} {content : Content} {next : Collector}
    (holds : collector.Holds content other) (visits : Visits host held handle collector next)
    (tables_eq : next.tables = collector.tables) (apart : other ≠ handle) :
    next.Holds content other := by
  obtain ⟨sample, same, found⟩ := holds
  exact ⟨sample, by rw [tables_eq]; exact same, (visits.reads other apart).trans found⟩

/-- When a flush has measured its snapshot, it includes what is to be exported. -/
theorem exists_included_of_measureFrom {passed left : List (Identity × Handle)}
    (balanced : collector.inventory.Balanced [] held [])
    (live_eq : collector.store.live = passed ++ left)
    (tried : ∀ entry ∈ collector.store.live, collector.HasTried host entry.2)
    (holds : List.Forall₂ collector.Holds (passed.filterMap (collector.content? host))
      included.reverse)
    (within : included ⊆ passed.map Prod.snd)
    (went : driven { host with stack } (collector.measureFrom cycle included
      (left.map Prod.snd)) = .ok (after, reply)) :
    ∃ (next : Collector) (exported : List Handle), next.inventory.Balanced [] held [] ∧
      next.standing host = collector.standing host ∧ next.store.live = collector.store.live ∧
      List.Forall₂ next.Holds (next.store.live.filterMap (next.content? host)) exported ∧
      driven { host with stack } (next.finish cycle exported) = .ok (after, reply) := by
  -- What is included has been passed, so it is not the sample that is measured next.
  induction left generalizing collector included passed with
  | nil =>
      rw [List.append_nil] at live_eq
      exact ⟨collector, included.reverse, balanced, rfl, rfl, live_eq ▸ holds, went⟩
  | cons entry rest ih =>
      have listed : entry ∈ collector.store.live :=
        live_eq ▸ List.mem_append_right _ List.mem_cons_self
      have unpassed := (apart_of_live balanced live_eq).1
      obtain ⟨middle, included', visits, tables_eq, here, outcome, went'⟩ :=
        visits_of_measureFrom balanced listed (tried entry listed) went
      have tried' : ∀ other ∈ middle.store.live, middle.HasTried host other.2 := by
        intro other member
        by_cases same : other.2 = entry.2
        · rw [same]
          exact here
        · rw [HasTried, visits.reads _ same]
          exact tried other (visits.live_eq ▸ member)
      have content_eq (other : Identity × Handle) (member : other ∈ collector.store.live) :
          middle.content? host other = collector.content? host other := by
        rw [content?, content?,
          view_eq_of_standing_eq visits.standing_eq visits.live_eq member]
      have kept : List.Forall₂ middle.Holds (passed.filterMap (middle.content? host))
          included.reverse := by
        have same : passed.filterMap (middle.content? host) =
            passed.filterMap (collector.content? host) :=
          List.filterMap_congr fun other member =>
            content_eq other (live_eq ▸ List.mem_append_left _ member)
        rw [same]
        refine forall₂_imp_mem (fun other member content each => ?_) holds
        refine each.visited visits tables_eq ?_
        rintro rfl
        exact unpassed (within (List.mem_reverse.mp member))
      have more : List.Forall₂ middle.Holds ((passed ++ [entry]).filterMap (middle.content? host))
          included'.reverse := by
        rw [List.filterMap_append]
        rcases outcome with ⟨nothing, rfl⟩ | ⟨content, something, rfl, new⟩
        · rw [List.filterMap_cons_none ((content_eq entry listed).trans nothing),
            List.filterMap_nil, List.append_nil]
          exact kept
        · rw [List.filterMap_cons_some ((content_eq entry listed).trans something),
            List.filterMap_nil, List.reverse_cons]
          exact List.rel_append kept (.cons new .nil)
      have within' : included' ⊆ (passed ++ [entry]).map Prod.snd := by
        rw [List.map_append]
        rcases outcome with ⟨-, rfl⟩ | ⟨-, -, rfl, -⟩
        · exact List.subset_append_of_subset_left _ within
        · exact List.cons_subset.mpr ⟨List.mem_append_right _ List.mem_cons_self,
            List.subset_append_of_subset_left _ within⟩
      obtain ⟨next, exported, balanced', standing_eq, live_eq', all, went''⟩ :=
        ih visits.balanced (by rw [visits.live_eq, live_eq, List.append_cons]) tried' more within'
          went'
      exact ⟨next, exported, balanced', standing_eq.trans visits.standing_eq,
        live_eq'.trans visits.live_eq, all, went''⟩

end Measuring

/-! ## Whole flushes -/

/-- The contents of what a flush exports are told by how its collector stands. -/
theorem filterMap_content?_eq (host : Host) (collector : Collector) :
    collector.store.live.filterMap (collector.content? host) =
      (collector.standing host).contents host := by
  rw [Standing.contents, standing, List.filterMap_map]
  rfl

theorem countP_skips_eq (host : Host) (collector : Collector) :
    collector.store.live.countP (collector.skips host) = (collector.standing host).failing := by
  rw [Standing.failing, standing, List.countP_map]
  rfl

/-- The samples that a flush has included have the contents that were to be exported. -/
theorem exists_samples {contents : List Content} {exported : List Handle}
    (holds : List.Forall₂ collector.Holds contents exported) :
    (exported.filterMap collector.store.sample?).map (·.content collector.tables) = contents := by
  obtain ⟨samples, same, found⟩ := exists_between holds
  rw [filterMap_of_forall₂ found, ← List.forall₂_eq_eq_eq, List.forall₂_map_left_iff]
  exact same.flip

/-- When a flush ends it gives its snapshot back, and the drops if it exports nothing. -/
theorem standing_of_finish {exported : List Handle}
    (balanced : collector.inventory.Balanced [] cycle.snapshot [])
    (taken : collector.store.dropped = 0)
    (holds : List.Forall₂ collector.Holds ((collector.standing host).contents host) exported)
    (went : driven { host with stack } (collector.finish cycle exported) = .ok (after, reply)) :
    ∃ result, Encodes ((collector.standing host).contents host) cycle.options result ∧
      after.flushing = false ∧ after.inventory.Balanced [] [] [] ∧
      after.store.live = collector.store.live ∧
      after.standing host =
        { collector.standing host with dropped := cycle.dropped }.flushed result ∧
      reply = .flushed (match result with
        | .ok bytes => .ok {
            bytes
            sampleCount := exported.length
            droppedCount := cycle.dropped
            processedCount := cycle.snapshot.length
            skippedCount := cycle.skipped }
        | .error cause => .error (.encodingFailure cause)) := by
  have encodes := encodes_content balanced.tables.bounded (balanced.resolves exported) cycle.options
  rw [show (exported.filterMap collector.inventory.store.sample?).map
    (·.content collector.inventory.tables) = _ from exists_samples holds] at encodes
  rw [← List.append_nil cycle.snapshot] at balanced
  obtain ⟨inventory, released', balanced', live_eq, aged⟩ := balanced.releaseSnapshot
  have standing_eq : Collector.standing host { collector with inventory } =
      collector.standing host := by
    rw [standing_of_ages balanced balanced' aged, live_eq]
    rfl
  refine ⟨encodeProfile collector.tables (exported.filterMap collector.store.sample?)
    cycle.options, encodes, ?_⟩
  cases finishes_of_driven went with
  | exported encoded released =>
      cases released.symm.trans released'
      rw [encoded]
      have kept : { collector.standing host with dropped := 0 } = collector.standing host := by
        rw [← taken]
        rfl
      exact ⟨rfl, balanced', live_eq, standing_eq.trans kept.symm, rfl⟩
  | failed encoded released =>
      cases released.symm.trans released'
      rw [encoded]
      have drops_eq : inventory.store.dropped = 0 := aged.dropped_eq.trans taken
      refine ⟨rfl, { balanced' with }, live_eq, ?_, rfl⟩
      refine (congrArg (fun standing : Standing => { standing with
        dropped := min (inventory.store.dropped + cycle.dropped) Store.maxDropped })
          standing_eq).trans ?_
      rw [drops_eq, Nat.zero_add]
      rfl

/-- A flush begins with a snapshot of all live samples, and it takes the pending drops. -/
theorem exists_begun {clock : Clock} (idle : collector.flushing = false)
    (balanced : collector.inventory.Balanced [] [] [])
    (performed : perform (quiet { host with stack }) collector (.flush clock) =
      .ok (after, reply)) :
    ∃ begun : Collector,
      begun.inventory.Balanced [] (collector.store.live.map Prod.snd) [] ∧
      begun.store.live = collector.store.live ∧
      begun.standing host = { collector.standing host with dropped := 0 } ∧
      driven { host with stack } (begun.symbolizeFrom {
        snapshot := collector.store.live.map Prod.snd
        dropped := collector.store.dropped
        options := collector.exportOptions clock } (begun.store.live.map Prod.snd)) =
          .ok (after, reply) := by
  obtain ⟨arena, flush_eq, reads, balanced'⟩ := flush_of_idle idle balanced clock
  rw [perform_quiet, call, flush_eq] at performed
  let begun : Collector :=
    { collector.withStore { collector.inventory.store with arena, dropped := 0 } with
      flushing := true }
  have preserves (entry : Identity × Handle) (listed : entry ∈ collector.store.live) :
      collector.inventory.Preserves begun.inventory entry.2 := by
    obtain ⟨sample, found, -⟩ := balanced.exists_live_sample listed
    exact Inventory.preserves_of_extends found ((reads entry.2).trans found) (.refl _)
  refine ⟨begun, balanced', rfl, ?_, performed⟩
  refine congrArg (fun live => { collector.standing host with live, dropped := 0 }) ?_
  refine List.map_congr_left fun entry listed => ?_
  rw [(preserves entry listed).view_eq balanced]

/--
An undisturbed flush exports what its collector stands for.  It leaves everything as it stood but
the pending drops, which are gone if they have been reported.
-/
theorem standing_of_flush {clock : Clock} (idle : collector.flushing = false)
    (balanced : collector.inventory.Balanced [] [] [])
    (performed : perform (quiet { host with stack }) collector (.flush clock) =
      .ok (after, reply)) :
    ∃ result,
      Encodes ((collector.standing host).contents host) (collector.exportOptions clock) result ∧
      after.flushing = false ∧ after.inventory.Balanced [] [] [] ∧
      after.store.live = collector.store.live ∧
      after.standing host = (collector.standing host).flushed result ∧
      reply = (collector.standing host).flushReply host result := by
  obtain ⟨begun, begun_balanced, begun_live, begun_standing, went⟩ :=
    exists_begun idle balanced performed
  obtain ⟨tried, tried_balanced, tried_standing, tried_live, all_tried, went'⟩ :=
    exists_tried_of_symbolizeFrom begun_balanced (List.nil_append _).symm
      (List.forall_mem_nil _) went
  rw [← begun_live, ← tried_live] at went'
  obtain ⟨measured, exported, measured_balanced, measured_standing, measured_live, holds, ended⟩ :=
    exists_included_of_measureFrom tried_balanced (List.nil_append _).symm all_tried .nil
      (List.nil_subset _) went'
  have stands := measured_standing.trans (tried_standing.trans begun_standing)
  have snapshot_eq : tried.store.live = collector.store.live := tried_live.trans begun_live
  rw [← snapshot_eq] at measured_balanced
  rw [filterMap_content?_eq] at holds
  obtain ⟨result, encodes, ended_idle, ended_balanced, ended_live, ended_standing, rfl⟩ :=
    standing_of_finish measured_balanced (congrArg Standing.dropped stands) holds ended
  rw [stands] at encodes ended_standing holds
  refine ⟨result, encodes, ended_idle, ended_balanced,
    ended_live.trans (measured_live.trans snapshot_eq), ended_standing, ?_⟩
  have skipped_eq : 0 + tried.store.live.countP (begun.skips host) =
      (collector.standing host).failing := by
    rw [tried_live, Nat.zero_add, countP_skips_eq, begun_standing]
    rfl
  have processed_eq : (tried.store.live.map Prod.snd).length =
      (collector.standing host).live.length := by
    simp only [snapshot_eq, standing, List.length_map]
  cases result with
  | error cause => rfl
  | ok bytes =>
      simp only [← holds.length_eq, skipped_eq, processed_eq]
      rfl

end Collector

end HeapSampler
