import Mathlib
import HeapSampler.Proofs.Collector.EndToEnd
import HeapSampler.Proofs.Collector.Limits
import HeapSampler.Proofs.Collector.Walk

/-!
# Collectors that stand alike

Two collectors stand alike if they have the same settings, if their live samples look the same, and
if the drops that they have reported in their session and those still pending add up to the same.
Undisturbed calls keep that up, so whatever is called on both from then on gives results that agree.
Only the length of an export depends on more than how a collector stands: on the ids of its places.
-/

namespace HeapSampler

/-! ## What agrees -/

def Reply.reportedDrops : Reply → Nat
  | .flushed (.ok profile) => profile.droppedCount
  | .flushed (.error _) | .noted | .settled _ => 0

def Call.startsSession : Call → Reply → Bool
  | .start _, .settled (.ok ()) => true
  | _, _ => false

/-- The drops that have been reported in a session, after one more call. -/
def Call.reported (reported : Nat) (call : Call) (reply : Reply) : Nat :=
  if call.startsSession reply then 0 else reported + reply.reportedDrops

/--
Two replies tell the same, given the drops reported before each and what each collector sends.  Two
flushes have profiles that convey the same samples with the same counts, and each replies with its
own as far as the limit has room for it.  So one of them fails alone just if the limit lies between
the lengths of the two.
-/
inductive Reply.Agrees (reported reported' limit : Nat) (sends sends' : ExportedProfile → Prop) :
    Reply → Reply → Prop where
  | noted : Agrees reported reported' limit sends sends' .noted .noted
  | settled (result : Except CollectorError Unit) :
      Agrees reported reported' limit sends sends' (.settled result) (.settled result)
  | crowded : Agrees reported reported' limit sends sends'
      (.flushed (.error (.encodingFailure .storageFull)))
      (.flushed (.error (.encodingFailure .storageFull)))
  | flushed {profile profile' : ExportedProfile} {resolved : List Pprof.ResolvedSample}
      (sent : sends profile) (sent' : sends' profile')
      (conveys : Conveys profile.bytes resolved) (conveys' : Conveys profile'.bytes resolved)
      (sampleCount_eq : profile.sampleCount = profile'.sampleCount)
      (processedCount_eq : profile.processedCount = profile'.processedCount)
      (skippedCount_eq : profile.skippedCount = profile'.skippedCount)
      (droppedCount_eq : reported = reported' → profile.droppedCount = profile'.droppedCount) :
      Agrees reported reported' limit sends sends' (.flushed (profile.within limit))
        (.flushed (profile'.within limit))

structure Collector.LooksLike (first second : Collector) : Prop where
  running_eq : first.running = second.running
  settings_eq : first.settings = second.settings
  maxSamples_eq : first.store.maxSamples = second.store.maxSamples
  identities_perm : (first.store.live.map Prod.fst).Perm (second.store.live.map Prod.fst)
  retainedCount_eq : first.store.retainedCount = second.store.retainedCount

/-- The collector that a call was made on, what the call replied, and the collector that it left. -/
structure CallResult where
  before : Collector
  reply : Reply
  after : Collector

/--
What comes of calls on a collector whose host makes none of its own.  The live table can take
another order before every call.
-/
inductive Continues (host : Host) :
    Collector → List (Call × Backtrace) → List CallResult → Prop where
  | done (collector : Collector) : Continues host collector [] []
  | called {collector after : Collector} {live : List (Identity × Handle)} {call : Call}
      {stack : Backtrace} {reply : Reply} {calls : List (Call × Backtrace)}
      {results : List CallResult} (shuffled : collector.store.live.Perm live)
      (performed : Collector.perform (Collector.quiet { host with stack })
        (collector.reordered live) call = .ok (after, reply))
      (rest : Continues host after calls results) :
      Continues host collector ((call, stack) :: calls)
        (⟨collector.reordered live, reply, after⟩ :: results)

inductive Breaks (host : Host) : Collector → List (Call × Backtrace) → Breach → Prop where
  | here {collector : Collector} {live : List (Identity × Handle)} {call : Call}
      {stack : Backtrace} {breach : Breach} (shuffled : collector.store.live.Perm live)
      (performed : Collector.perform (Collector.quiet { host with stack })
        (collector.reordered live) call = .error breach) (calls : List (Call × Backtrace)) :
      Breaks host collector ((call, stack) :: calls) breach
  | later {collector after : Collector} {live : List (Identity × Handle)} {call : Call}
      {stack : Backtrace} {reply : Reply} {calls : List (Call × Backtrace)} {breach : Breach}
      (shuffled : collector.store.live.Perm live)
      (performed : Collector.perform (Collector.quiet { host with stack })
        (collector.reordered live) call = .ok (after, reply))
      (rest : Breaks host after calls breach) :
      Breaks host collector ((call, stack) :: calls) breach

/--
The results of the same calls on two collectors agree call by call, given the drops reported before.
What has been reported in a session and what is pending add up to the same, as 64-bit numbers.
-/
inductive Agree (host : Host) :
    Nat → Nat → List (Call × Backtrace) → List CallResult → List CallResult → Prop where
  | done (reported reported' : Nat) : Agree host reported reported' [] [] []
  | called {reported reported' : Nat} {call : Call} {stack : Backtrace}
      {outcome outcome' : CallResult}
      {calls : List (Call × Backtrace)} {results results' : List CallResult}
      (settings_eq : outcome.before.settings = outcome'.before.settings)
      (replies : Reply.Agrees reported reported' outcome.before.settings.settings.maxProfileBytes
        (outcome.before.Sends { host with stack } call)
        (outcome'.before.Sends { host with stack } call) outcome.reply outcome'.reply)
      (looks : outcome.after.LooksLike outcome'.after)
      (drops_eq : (call.reported reported outcome.reply + outcome.after.store.dropped) %
          (Store.maxDropped + 1) =
        (call.reported reported' outcome'.reply + outcome'.after.store.dropped) %
          (Store.maxDropped + 1))
      (rest : Agree host (call.reported reported outcome.reply)
        (call.reported reported' outcome'.reply) calls results results') :
      Agree host reported reported' ((call, stack) :: calls) (outcome :: results)
        (outcome' :: results')

/-! ## Standings -/

/-- All that matters of two collectors is the same, given the drops that each has reported. -/
structure Standing.Alike (reported reported' : Nat) (first second : Standing) : Prop where
  running_eq : first.running = second.running
  settings_eq : first.settings = second.settings
  maxSamples_eq : first.maxSamples = second.maxSamples
  live_perm : first.live.Perm second.live
  dropped_le : first.dropped ≤ Store.maxDropped
  dropped_le' : second.dropped ≤ Store.maxDropped
  drops_eq : (reported + first.dropped) % (Store.maxDropped + 1) =
    (reported' + second.dropped) % (Store.maxDropped + 1)

namespace Standing

variable {reported reported' : Nat} {first second : Standing} {host : Host}

theorem Alike.dropped_eq (alike : first.Alike reported reported' second)
    (same : reported = reported') : first.dropped = second.dropped := by
  have drops_eq := alike.drops_eq
  have dropped_le := alike.dropped_le
  have dropped_le' := alike.dropped_le'
  simp only [Store.maxDropped] at drops_eq dropped_le dropped_le'
  omega

theorem Alike.without_perm (alike : first.Alike reported reported' second) (identity : Identity) :
    (first.without identity).Perm (second.without identity) :=
  alike.live_perm.filter _

theorem Alike.allocated (alike : first.Alike reported reported' second) (identity : Identity)
    (view : View) :
    (first.allocated identity view).Alike reported reported' (second.allocated identity view) := by
  have others := alike.without_perm identity
  have room_iff : (first.without identity).length < first.maxSamples ↔
      (second.without identity).length < second.maxSamples := by
    rw [others.length_eq, alike.maxSamples_eq]
  unfold Standing.allocated
  split
  · rename_i room
    rw [if_pos (room_iff.mp room)]
    exact { alike with live_perm := others.append_right _ }
  · rename_i full
    rw [if_neg (full ∘ room_iff.mpr)]
    have drops_eq := alike.drops_eq
    simp only [Store.maxDropped] at drops_eq
    exact { alike with
      live_perm := others
      dropped_le := Nat.le_of_lt_succ (Nat.mod_lt _ (Nat.succ_pos _))
      dropped_le' := Nat.le_of_lt_succ (Nat.mod_lt _ (Nat.succ_pos _))
      drops_eq := by
        simp only [Store.maxDropped]
        omega }

theorem Alike.relocated (alike : first.Alike reported reported' second) (old new : Identity) :
    (first.relocated old new).Alike reported reported' (second.relocated old new) := by
  have moved := alike.live_perm.filter fun entry => decide (entry.1 = old)
  have others := (alike.without_perm old).filter fun entry => decide (entry.1 ≠ new)
  unfold Standing.relocated
  cases found : first.live.filter fun entry => entry.1 = old with
  | nil =>
      rw [found] at moved
      rw [moved.nil_eq.symm]
      exact alike
  | cons entry rest =>
      rw [found] at moved
      cases found' : second.live.filter fun entry => entry.1 = old with
      | nil =>
          rw [found'] at moved
          exact absurd moved.eq_nil (List.cons_ne_nil _ _)
      | cons entry' rest' =>
          rw [found'] at moved
          exact { alike with live_perm := others.append (moved.map _) }

theorem Alike.emptied (alike : first.Alike reported reported' second) (instant : Nat) :
    Alike 0 0 { first with running := true, sessionStart := some instant, dropped := 0, live := [] }
      { second with running := true, sessionStart := some instant, dropped := 0, live := [] } :=
  { alike with
    running_eq := rfl
    live_perm := .refl _
    dropped_le := Nat.zero_le _
    dropped_le' := Nat.zero_le _
    drops_eq := rfl }

/-- A call that is no flush leads from standings that are alike to standings that are alike. -/
theorem Alike.next (alike : first.Alike reported reported' second) (stack : Backtrace) {call : Call}
    (other : ∀ clock, call ≠ .flush clock) :
    (first.next host call stack).Alike
      (call.reported reported (call.reply first.running))
      (call.reported reported' (call.reply second.running)) (second.next host call stack) := by
  rw [← alike.running_eq]
  cases call with
  | allocate identity tags draw =>
      simp only [Standing.next, ← alike.running_eq, ← alike.settings_eq]
      split
      · exact alike.allocated identity _
      · exact alike
  | release identity => exact { alike with live_perm := alike.without_perm identity }
  | relocate old new =>
      simp only [Standing.next]
      split
      · exact alike
      · exact alike.relocated old new
  | start instant =>
      simp only [Standing.next, ← alike.running_eq]
      cases first.running with
      | true => exact alike
      | false => exact alike.emptied instant
  | stop => cases first.running <;> exact { alike with running_eq := rfl }
  | retire => exact { alike with running_eq := rfl }
  | configure settings =>
      simp only [Standing.next, Call.reply]
      cases settings.validate with
      | error cause => exact alike
      | ok valid => exact { alike with settings_eq := rfl, maxSamples_eq := rfl }
  | setGlobalTags tags =>
      simp only [Standing.next, Call.reply]
      split
      · exact alike
      · exact { alike with settings_eq := congrArg (·.withGlobalTags tags) alike.settings_eq }
  | flush clock => exact absurd rfl (other clock)

/-- Whatever comes of a flush, it loses no drops. -/
theorem drops_of_flushed {standing : Standing} (bounded : standing.dropped ≤ Store.maxDropped)
    (host : Host) (result : Except EncodeError (List UInt8)) :
    (standing.flushReply host result).reportedDrops + (standing.flushed result).dropped =
      standing.dropped := by
  cases result with
  | ok bytes => rfl
  | error cause => exact (Nat.zero_add _).trans (Nat.min_eq_left bounded)

theorem Alike.flushed (alike : first.Alike reported reported' second)
    (result result' : Except EncodeError (List UInt8)) :
    (first.flushed result).Alike
      (reported + (first.flushReply host result).reportedDrops)
      (reported' + (second.flushReply host result').reportedDrops)
      (second.flushed result') := by
  have kept := drops_of_flushed alike.dropped_le host result
  have kept' := drops_of_flushed alike.dropped_le' host result'
  have drops_eq := alike.drops_eq
  rw [← kept, ← kept', ← Nat.add_assoc, ← Nat.add_assoc] at drops_eq
  have dropped_le := (Nat.le.intro ((Nat.add_comm _ _).trans kept)).trans alike.dropped_le
  have dropped_le' := (Nat.le.intro ((Nat.add_comm _ _).trans kept')).trans alike.dropped_le'
  cases result <;> cases result' <;> exact { alike with dropped_le, dropped_le', drops_eq }

end Standing

/-! ## Undisturbed calls -/

variable {host : Host} {collector after : Collector} {live : List (Identity × Handle)}
  {call : Call} {stack : Backtrace} {reply : Reply} {calls : List (Call × Backtrace)}
  {breach : Breach}

namespace Collector

/-- Nothing of a collector waits, and its books balance. -/
def Idle (collector : Collector) : Prop := Machine.Sound { collector }

theorem Idle.flushing_eq (idle : collector.Idle) : collector.flushing = false := by
  have none_under_way := Machine.Sound.cycles_length idle
  cases flushing : collector.flushing with
  | false => rfl
  | true => simp [flushing, Machine.cycles] at none_under_way

theorem Idle.balanced (idle : collector.Idle) : collector.inventory.Balanced [] [] [] :=
  Machine.Sound.balanced idle

theorem idle_of_balanced (flushing_eq : collector.flushing = false)
    (balanced : collector.inventory.Balanced [] [] []) : collector.Idle where
  balanced := balanced
  cycles_length := by rw [flushing_eq]; rfl
  waiting _ member := nomatch member

theorem Idle.limitedTo (idle : collector.Idle) (limit : Nat) : (collector.limitedTo limit).Idle :=
  idle_of_balanced idle.flushing_eq idle.balanced

theorem Idle.reordered (idle : collector.Idle) (shuffled : collector.store.live.Perm live) :
    (collector.reordered live).Idle :=
  idle_of_balanced idle.flushing_eq (idle.balanced.shuffle shuffled)

/-- The call that has been driven to its reply leaves nothing waiting; all it can want is room. -/
def EndsSoundly : Except Breach (Collector × Reply) → Prop
  | .ok (after, _) => after.Idle
  | .error breach => breach.IsExhaustion

/-- What waits is answered until there is a reply, and every answer keeps the books in balance. -/
theorem endsSoundly_of_driven {progress : Progress}
    (sound : Machine.Sound { collector, waiting := progress.onto [] }) :
    EndsSoundly (driven host (.ok (collector, progress))) := by
  -- An answer can settle several samples at once, so the induction is on how many requests remain.
  induction count : progress.remaining using Nat.strong_induction_on
    generalizing collector progress with
  | _ remaining ih =>
      cases progress with
      | replied reply =>
          rw [driven_replied]
          exact sound
      | waiting suspended =>
          rw [driven_waiting]
          cases went : collector.resume suspended (host.answer suspended.request) with
          | error breach =>
              have broken : Machine.breach? { collector, waiting := [suspended] } (.answer host) =
                  some breach := by simp only [Machine.breach?, went]
              exact sound.exhausted broken
          | ok reached =>
              obtain ⟨next, progress⟩ := reached
              have stepped : Machine.step? { collector, waiting := [suspended] } (.answer host) =
                  some (progress, { collector := next, waiting := progress.onto [] }) := by
                simp only [Machine.step?, went]
              exact ih _ (count ▸ remaining_lt_of_resume went) (sound.step stepped) rfl

theorem Idle.endsSoundly (idle : collector.Idle) (host : Host) (call : Call) :
    EndsSoundly (perform (quiet host) collector call) := by
  rw [perform_quiet]
  cases went : collector.call call with
  | error breach =>
      have broken : Machine.breach? { collector } (.call call) = some breach := by
        simp only [Machine.breach?, went]
      exact Machine.Sound.exhausted idle broken
  | ok reached =>
      obtain ⟨next, progress⟩ := reached
      have stepped : Machine.step? { collector } (.call call) =
          some (progress, { collector := next, waiting := progress.onto [] }) := by
        simp only [Machine.step?, went]
      exact endsSoundly_of_driven (Machine.Sound.step idle stepped)

theorem Idle.perform (idle : collector.Idle)
    (performed : perform (quiet host) collector call = .ok (after, reply)) : after.Idle := by
  have ends := idle.endsSoundly host call
  rw [performed] at ends
  exact ends

theorem Idle.exhausted (idle : collector.Idle)
    (performed : Collector.perform (quiet host) collector call = .error breach) :
    breach.IsExhaustion := by
  have ends := idle.endsSoundly host call
  rw [performed] at ends
  exact ends

/-! ## Two collectors -/

variable {reported reported' : Nat} {first second after' : Collector}
  {live' : List (Identity × Handle)} {reply' : Reply}

/--
What a flush sends is told by how its collector stands; it sends nothing only if there are too many
strings.
-/
theorem Idle.sends {clock : Clock} (idle : collector.Idle)
    (performed : Collector.perform (quiet { host with stack }) collector (.flush clock) =
      .ok (after, reply)) :
    Drafting.Crowded (Content.Needs ((collector.standing host).contents host)) ∧
        reply = .flushed (.error (.encodingFailure .storageFull)) ∨
      ∃ profile resolved, collector.Sends { host with stack } (.flush clock) profile ∧
        ¬Drafting.Crowded (Content.Needs ((collector.standing host).contents host)) ∧
        ((collector.standing host).contents host).mapM Content.resolved? = some resolved ∧
        Conveys profile.bytes (Pprof.sorted resolved) ∧
        .flushed (.ok profile) = (collector.standing host).flushReply host (.ok profile.bytes) := by
  rcases exists_sends idle.flushing_eq performed with ⟨cause, fails⟩ | ⟨profile, sends⟩
  · -- Two limits cannot both be the one that is exceeded, so the limit is not the cause.
    have for_limit (limit : Nat) :
        Drafting.Crowded (Content.Needs ((collector.standing host).contents host)) ∧
            cause = .storageFull ∨ cause = .sizeLimitExceeded limit := by
      obtain ⟨after, failed⟩ := fails limit
      obtain ⟨result, encodes, -, -, -, -, reply_eq⟩ :=
        standing_of_flush (idle.limitedTo limit).flushing_eq (idle.limitedTo limit).balanced failed
      cases encodes with
      | packed room resolved_eq conveys =>
          split at reply_eq
          · cases reply_eq
          · cases reply_eq
            exact .inr rfl
      | crowded crowded =>
          cases reply_eq
          exact .inl ⟨crowded, rfl⟩
    have reply_eq : reply = .flushed (.error (.encodingFailure cause)) := by
      obtain ⟨own, failed⟩ := fails collector.settings.settings.maxProfileBytes
      rw [limitedTo_own, performed] at failed
      cases failed
      rfl
    rcases for_limit 0 with ⟨crowded, rfl⟩ | zero
    · exact .inl ⟨crowded, reply_eq⟩
    · rcases for_limit 1 with ⟨crowded, rfl⟩ | one
      · exact .inl ⟨crowded, reply_eq⟩
      · cases zero.symm.trans one
  · obtain ⟨limit, last, exported⟩ : ∃ limit last, Collector.perform (quiet { host with stack })
        (collector.limitedTo limit) (.flush clock) = .ok (last, .flushed (.ok profile)) := by
      obtain ⟨last, exported⟩ := sends profile.bytes.length
      rw [ExportedProfile.within_length] at exported
      exact ⟨_, last, exported⟩
    have idle' := idle.limitedTo limit
    obtain ⟨result, encodes, -, -, -, -, reply_eq⟩ :=
      standing_of_flush idle'.flushing_eq idle'.balanced exported
    cases encodes with
    | packed room resolved_eq conveys =>
        split at reply_eq
        · cases reply_eq
          exact .inr ⟨_, _, sends, room, resolved_eq, conveys, rfl⟩
        · cases reply_eq
    | crowded crowded => cases reply_eq

theorem standing_reordered (host : Host) (shuffled : collector.store.live.Perm live) :
    ((collector.reordered live).standing host).live.Perm (collector.standing host).live :=
  shuffled.symm.map _

theorem Idle.retainedCount_eq (idle : collector.Idle) :
    collector.store.retainedCount = collector.store.live.length := by
  have owners := idle.balanced.owners
  have nodup := idle.balanced.handles_nodup
  simp only [List.append_nil] at owners nodup
  exact (owners.size_eq_length nodup).trans (List.length_map _)

theorem looksLike_of_alike (idle : first.Idle) (idle' : second.Idle)
    (alike : (first.standing host).Alike reported reported' (second.standing host)) :
    first.LooksLike second where
  running_eq := alike.running_eq
  settings_eq := alike.settings_eq
  maxSamples_eq := alike.maxSamples_eq
  identities_perm := by
    have same := alike.live_perm.map Prod.fst
    simpa only [standing, List.map_map, Function.comp_def] using same
  retainedCount_eq := by
    have same := alike.live_perm.length_eq
    simp only [standing, List.length_map] at same
    rw [idle.retainedCount_eq, idle'.retainedCount_eq, same]

theorem alike_of_reordered
    (alike : (first.standing host).Alike reported reported' (second.standing host))
    (shuffled : first.store.live.Perm live) (shuffled' : second.store.live.Perm live') :
    ((first.reordered live).standing host).Alike reported reported'
      ((second.reordered live').standing host) :=
  { alike with
    live_perm := (standing_reordered host shuffled).trans
      (alike.live_perm.trans (standing_reordered host shuffled').symm) }

/-- Two flushes of collectors that stand alike have the same samples to send. -/
theorem agrees_of_flush {clock : Clock} (idle : first.Idle) (idle' : second.Idle)
    (alike : (first.standing host).Alike reported reported' (second.standing host))
    (performed : Collector.perform (quiet { host with stack }) first (.flush clock) =
      .ok (after, reply))
    (performed' : Collector.perform (quiet { host with stack }) second (.flush clock) =
      .ok (after', reply')) :
    Reply.Agrees reported reported' first.settings.settings.maxProfileBytes
      (first.Sends { host with stack } (.flush clock))
      (second.Sends { host with stack } (.flush clock)) reply reply' := by
  have contents_perm : ((first.standing host).contents host).Perm
      ((second.standing host).contents host) := alike.live_perm.filterMap _
  have settings_eq : first.settings = second.settings := alike.settings_eq
  rcases idle.sends performed with
    ⟨crowded, rfl⟩ | ⟨profile, resolved, sent, room, resolved_eq, conveys, counts⟩
  · rcases idle'.sends performed' with ⟨-, rfl⟩ | ⟨_, _, _, room', _⟩
    · exact .crowded
    · exact absurd ((Content.crowded_perm contents_perm).mp crowded) room'
  · rcases idle'.sends performed' with
      ⟨crowded', -⟩ | ⟨profile', resolved', sent', -, resolved_eq', conveys', counts'⟩
    · exact absurd ((Content.crowded_perm contents_perm).mpr crowded') room
    · rw [← Content.sorted_perm contents_perm resolved_eq resolved_eq'] at conveys'
      rw [sent.reply_eq performed, sent'.reply_eq performed', ← settings_eq]
      injection counts with counts
      injection counts with counts
      injection counts' with counts'
      injection counts' with counts'
      refine .flushed sent sent' conveys conveys' ?_ ?_ ?_ fun same => ?_
      · rw [counts, counts']
        exact contents_perm.length_eq
      · rw [counts, counts']
        exact alike.live_perm.length_eq
      · rw [counts, counts']
        exact alike.live_perm.countP_eq _
      · rw [counts, counts']
        exact alike.dropped_eq same

/-- One call on two collectors that stand alike gets replies that agree and keeps them alike. -/
theorem agrees_of_perform (idle : first.Idle) (idle' : second.Idle)
    (alike : (first.standing host).Alike reported reported' (second.standing host))
    (performed : Collector.perform (quiet { host with stack }) first call = .ok (after, reply))
    (performed' : Collector.perform (quiet { host with stack }) second call =
      .ok (after', reply')) :
    Reply.Agrees reported reported' first.settings.settings.maxProfileBytes
        (first.Sends { host with stack } call) (second.Sends { host with stack } call)
        reply reply' ∧
      (after.standing host).Alike (call.reported reported reply) (call.reported reported' reply')
        (after'.standing host) := by
  by_cases flushes : ∃ clock, call = .flush clock
  · obtain ⟨clock, rfl⟩ := flushes
    refine ⟨agrees_of_flush idle idle' alike performed performed', ?_⟩
    obtain ⟨result, -, -, -, -, standing_eq, rfl⟩ :=
      standing_of_flush idle.flushing_eq idle.balanced performed
    obtain ⟨result', -, -, -, -, standing_eq', rfl⟩ :=
      standing_of_flush idle'.flushing_eq idle'.balanced performed'
    rw [standing_eq, standing_eq']
    exact alike.flushed result result'
  · have other (clock : Clock) : call ≠ .flush clock := fun same => flushes ⟨clock, same⟩
    obtain ⟨standing_eq, rfl⟩ := standing_of_perform idle.balanced
      (fun clock same => absurd same (other clock)) performed
    obtain ⟨standing_eq', rfl⟩ := standing_of_perform idle'.balanced
      (fun clock same => absurd same (other clock)) performed'
    have running_eq : first.running = second.running := alike.running_eq
    rw [standing_eq, standing_eq']
    refine ⟨?_, alike.next stack other⟩
    rw [running_eq]
    cases call with
    | allocate | release | relocate => exact .noted
    | start | stop | configure | setGlobalTags | retire => exact .settled _
    | flush clock => exact absurd rfl (other clock)

end Collector

/-! ## Continuations -/

variable {first second : Collector} {reported reported' : Nat}
  {results results' : List CallResult}

/-- Whatever is called on two collectors that stand alike, the results agree. -/
theorem agree_of_continues (idle : first.Idle) (idle' : second.Idle)
    (alike : (first.standing host).Alike reported reported' (second.standing host))
    (continues : Continues host first calls results)
    (continues' : Continues host second calls results') :
    Agree host reported reported' calls results results' := by
  -- The two runs go side by side; the drops reported so far change with every flush.
  induction continues generalizing second reported reported' results' with
  | done first =>
      cases continues' with
      | done second => exact .done reported reported'
  | called shuffled performed rest ih =>
      cases continues' with
      | called shuffled' performed' rest' =>
          have after_idle := (idle.reordered shuffled).perform performed
          have after_idle' := (idle'.reordered shuffled').perform performed'
          obtain ⟨replies, alike'⟩ := Collector.agrees_of_perform (idle.reordered shuffled)
            (idle'.reordered shuffled') (Collector.alike_of_reordered alike shuffled shuffled')
            performed performed'
          exact .called alike.settings_eq replies
            (Collector.looksLike_of_alike after_idle after_idle' alike')
            alike'.drops_eq (ih after_idle after_idle' alike' rest')

/-- All that calls can be found wanting is room. -/
theorem exhausted_of_breaks (idle : collector.Idle) (breaks : Breaks host collector calls breach) :
    breach.IsExhaustion := by
  induction breaks with
  | here shuffled performed calls => exact (idle.reordered shuffled).exhausted performed
  | later shuffled performed rest ih => exact ih ((idle.reordered shuffled).perform performed)

/-- Calls either come to their end or to that of some room. -/
theorem continues_or_breaks (host : Host) (collector : Collector)
    (calls : List (Call × Backtrace)) :
    (∃ results, Continues host collector calls results) ∨
      ∃ breach, Breaks host collector calls breach := by
  induction calls generalizing collector with
  | nil => exact .inl ⟨[], .done collector⟩
  | cons call rest ih =>
      obtain ⟨call, stack⟩ := call
      cases performed : Collector.perform (Collector.quiet { host with stack })
          (collector.reordered collector.store.live) call with
      | error breach => exact .inr ⟨breach, .here (.refl _) performed rest⟩
      | ok reached =>
          obtain ⟨after, reply⟩ := reached
          rcases ih after with ⟨results, continues⟩ | ⟨breach, breaks⟩
          · exact .inl ⟨_, .called (.refl _) performed continues⟩
          · exact .inr ⟨breach, .later (.refl _) performed breaks⟩

def performed? (host : Host) (collector : Collector) (call : Call) : Option (Collector × Reply) :=
  (Collector.perform (Collector.quiet host) collector call).toOption

theorem perform_of_performed? {reached : Collector × Reply}
    (found : performed? host collector call = some reached) :
    Collector.perform (Collector.quiet host) collector call = .ok reached := by
  unfold performed? at found
  cases performed : Collector.perform (Collector.quiet host) collector call with
  | error breach =>
      rw [performed] at found
      cases found
  | ok own =>
      rw [performed] at found
      cases found
      rfl

def continued? (host : Host) (collector : Collector) :
    List (Call × Backtrace) → Option (List CallResult)
  | [] => some []
  | (call, stack) :: rest =>
      (performed? { host with stack } collector call).bind fun reached =>
        (continued? host reached.1 rest).map (⟨collector, reached.2, reached.1⟩ :: ·)

theorem continues_of_continued? (continued : continued? host collector calls = some results) :
    Continues host collector calls results := by
  induction calls generalizing collector results with
  | nil =>
      cases continued
      exact .done collector
  | cons call rest ih =>
      obtain ⟨call, stack⟩ := call
      obtain ⟨⟨after, reply⟩, found, continued'⟩ := Option.bind_eq_some_iff.mp continued
      obtain ⟨later, continued'', rfl⟩ := Option.map_eq_some_iff.mp continued'
      exact .called (.refl _) (perform_of_performed? found) (ih continued'')

def lastProfile? (host : Host) (collector : Collector) (calls : List (Call × Backtrace)) :
    Option ExportedProfile :=
  ((continued? host collector calls).bind List.getLast?).bind fun outcome =>
    (Progress.replied outcome.reply).profile?

def lastFailure? (host : Host) (collector : Collector) (calls : List (Call × Backtrace)) :
    Option EncodeError :=
  ((continued? host collector calls).bind List.getLast?).bind fun outcome =>
    (Progress.replied outcome.reply).failure?

theorem exists_of_lastProfile? {profile : ExportedProfile}
    (found : lastProfile? host collector calls = some profile) :
    ∃ results, Continues host collector calls results ∧
      results.getLast?.map CallResult.reply = some (.flushed (.ok profile)) := by
  obtain ⟨⟨before, reply, after⟩, reached, exported⟩ := Option.bind_eq_some_iff.mp found
  obtain ⟨results, continued, last_eq⟩ := Option.bind_eq_some_iff.mp reached
  cases Progress.profile?_eq_some exported
  exact ⟨results, continues_of_continued? continued, by rw [last_eq, Option.map_some]⟩

theorem exists_of_lastFailure? {cause : EncodeError}
    (found : lastFailure? host collector calls = some cause) :
    ∃ results, Continues host collector calls results ∧
      results.getLast?.map CallResult.reply =
        some (.flushed (.error (.encodingFailure cause))) := by
  obtain ⟨⟨before, reply, after⟩, reached, failed⟩ := Option.bind_eq_some_iff.mp found
  obtain ⟨results, continued, last_eq⟩ := Option.bind_eq_some_iff.mp reached
  cases Progress.failure?_eq_some failed
  exact ⟨results, continues_of_continued? continued, by rw [last_eq, Option.map_some]⟩

end HeapSampler
