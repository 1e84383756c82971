import Mathlib
import HeapSampler.Proofs.Collector.Exports
import HeapSampler.Proofs.Collector.Runs

/-!
# From calls to profiles

If the host makes no calls of its own, what a profile says can be told from the calls that were
made: it is what is expected of the live objects, whatever ids, cells and orders were used.
-/

namespace HeapSampler

/--
What calls can make of a collector whose host makes none of its own.  Each call comes with the call
stack at its time, and the live table can take another order at any time.
-/
inductive QuietRun (host : Host) (settings : Settings) :
    List (Call × Backtrace) → Collector → Prop where
  | created {collector : Collector} (created : Collector.create settings = .ok collector) :
      QuietRun host settings [] collector
  | called {calls : List (Call × Backtrace)} {before after : Collector}
      {live : List (Identity × Handle)} {call : Call} {stack : Backtrace} {reply : Reply}
      (run : QuietRun host settings calls before) (shuffled : before.store.live.Perm live)
      (performed : Collector.perform (Collector.quiet { host with stack })
        (before.reordered live) call = .ok (after, reply)) :
      QuietRun host settings (calls ++ [(call, stack)]) after

def replayQuiet (host : Host) (collector : Collector) : List (Call × Backtrace) → Option Collector
  | [] => some collector
  | (call, stack) :: rest =>
      match Collector.perform (Collector.quiet { host with stack }) collector call with
      | .ok (after, _) => replayQuiet host after rest
      | .error _ => none

theorem QuietRun.of_replayQuiet {host : Host} {settings : Settings} {collector last : Collector}
    {calls later : List (Call × Backtrace)} (run : QuietRun host settings calls collector)
    (replayed : replayQuiet host collector later = some last) :
    QuietRun host settings (calls ++ later) last := by
  induction later generalizing calls collector with
  | nil =>
      cases replayed
      rw [List.append_nil]
      exact run
  | cons call rest ih =>
      obtain ⟨call, stack⟩ := call
      unfold replayQuiet at replayed
      split at replayed
      · rename_i after reply performed
        rw [List.append_cons]
        exact ih (.called run (.refl _) performed) replayed
      · cases replayed

def quietExport? (host : Host) (settings : Settings) (calls : List (Call × Backtrace))
    (clock : Clock) : Option ExportedProfile :=
  match Collector.create settings with
  | .error _ => none
  | .ok collector =>
      match replayQuiet host collector calls with
      | none => none
      | some collector =>
          match Collector.perform (Collector.quiet host) collector (.flush clock) with
          | .ok (_, .flushed (.ok profile)) => some profile
          | _ => none

theorem exists_of_quietExport? {host : Host} {settings : Settings}
    {calls : List (Call × Backtrace)} {clock : Clock} {profile : ExportedProfile}
    (exported : quietExport? host settings calls clock = some profile) :
    ∃ collector after, QuietRun host settings calls collector ∧
      Collector.perform (Collector.quiet host) collector (.flush clock) =
        .ok (after, .flushed (.ok profile)) := by
  unfold quietExport? at exported
  split at exported
  · cases exported
  · rename_i fresh created
    split at exported
    · cases exported
    · rename_i collector replayed
      split at exported
      · rename_i after found performed
        cases exported
        exact ⟨collector, after, (QuietRun.created created).of_replayQuiet replayed, performed⟩
      · cases exported

namespace Represents

variable {host : Host} {scene : Scene} {collector after : Collector} {stack : Backtrace}
  {reply : Reply}

theorem reordered (represents : Represents host scene collector)
    {live : List (Identity × Handle)} (shuffled : collector.store.live.Perm live) :
    Represents host scene (collector.reordered live) :=
  { represents with
    balanced := represents.balanced.shuffle shuffled
    mirrors := (represents.mirrors.shuffle shuffled).mono fun entry listed => by
      obtain ⟨sample, found, -⟩ :=
        represents.balanced.exists_live_sample (shuffled.mem_iff.mpr listed)
      exact Inventory.preserves_of_extends found found (.refl _) }

theorem next (represents : Represents host scene collector) (host_fits : host.Fits)
    (scene_fits : scene.Fits) {call : Call}
    (performed : Collector.perform (Collector.quiet { host with stack }) collector call =
      .ok (after, reply)) : Represents host (scene.next call stack) after := by
  rw [Collector.perform_quiet] at performed
  cases call with
  | allocate identity tags draw => exact represents.allocate performed
  | release identity =>
      cases released : collector.release identity with
      | error breach => simp [Collector.call, released, Except.map] at performed
      | ok last =>
          simp only [Collector.call, released, Except.map, Collector.driven_replied] at performed
          cases performed
          exact represents.release released
  | relocate old new =>
      cases relocated : collector.relocate old new with
      | error breach => simp [Collector.call, relocated, Except.map] at performed
      | ok last =>
          simp only [Collector.call, relocated, Except.map, Collector.driven_replied] at performed
          cases performed
          exact represents.relocate relocated
  | start instant => exact represents.start performed
  | stop => exact represents.halt performed
  | configure settings =>
      simp only [Collector.call, Collector.driven_replied] at performed
      cases performed
      exact represents.configure rfl
  | setGlobalTags tags =>
      simp only [Collector.call, Collector.driven_replied] at performed
      cases performed
      exact represents.setGlobalTags rfl
  | flush clock => exact (represents.flush host_fits scene_fits performed).1
  | retire => exact represents.halt performed

end Represents

theorem Collector.represents_of_create {host : Host} {settings : Settings} {valid : ValidSettings}
    {collector : Collector} (checked : settings.validate = .ok valid)
    (created : Collector.create settings = .ok collector) :
    Represents host { settings := valid } collector := by
  unfold create at created
  rw [checked] at created
  cases created
  exact {
    running_eq := rfl
    settings_eq := rfl
    maxSamples_eq := by rw [settings_of_validate checked]; rfl
    idle := rfl
    balanced := Inventory.balanced_empty _
    mirrors := ⟨[], .nil, .nil⟩ }

namespace QuietRun

variable {host : Host} {settings : Settings} {valid : ValidSettings} {collector : Collector}
  {calls : List (Call × Backtrace)}

/-- A collector represents the scene that its calls make, and all of it fits the machine. -/
theorem represents (run : QuietRun host settings calls collector)
    (checked : settings.validate = .ok valid) (host_fits : host.Fits)
    (settings_fit : TagsFit (2 ^ 58) settings.globalTags.entries)
    (calls_fit : ∀ call ∈ calls, call.1.Fits) :
    Represents host (Scene.after { settings := valid } calls) collector ∧
      (Scene.after { settings := valid } calls).Fits := by
  induction run with
  | created created =>
      refine ⟨Collector.represents_of_create checked created, ?_, fun _ listed => nomatch listed⟩
      change TagsFit _ valid.settings.globalTags.entries
      rw [settings_of_validate checked]
      exact settings_fit
  | called run shuffled performed ih =>
      rename_i calls before last live call stack reply
      obtain ⟨earlier_fit, last_fits⟩ := List.forall_mem_append.mp calls_fit
      obtain ⟨earlier, scene_fits⟩ := ih earlier_fit
      rw [Scene.after_append]
      exact ⟨(earlier.reordered shuffled).next host_fits scene_fits performed,
        scene_fits.next (last_fits _ List.mem_cons_self) stack⟩

end QuietRun

/--
Whenever an undisturbed flush succeeds, its profile can be read, and it says what the calls before
it make one expect: of each live object with places and a size one sample, and nothing else.
-/
theorem resolve_of_flushed {host : Host} {settings : Settings} {valid : ValidSettings}
    {calls : List (Call × Backtrace)} {collector after : Collector}
    {live : List (Identity × Handle)} {clock : Clock} {stack : Backtrace}
    {profile : ExportedProfile} (checked : settings.validate = .ok valid) (host_fits : host.Fits)
    (settings_fit : TagsFit (2 ^ 58) settings.globalTags.entries)
    (calls_fit : ∀ call ∈ calls, call.1.Fits) (run : QuietRun host settings calls collector)
    (shuffled : collector.store.live.Perm live)
    (flushed : Collector.perform (Collector.quiet { host with stack })
      (collector.reordered live) (.flush clock) = .ok (after, .flushed (.ok profile))) :
    ((Scene.after { settings := valid } calls).live.map LiveObject.identity).Nodup ∧
      ∃ message, Pprof.decode profile.bytes = .ok message ∧
        message.resolve = .ok ((Scene.after { settings := valid } calls).expected host) := by
  obtain ⟨represents, scene_fits⟩ := run.represents checked host_fits settings_fit calls_fit
  have exported := (represents.reordered shuffled).flush host_fits scene_fits flushed
  refine ⟨?_, exported.2 profile rfl⟩
  rw [← represents.mirrors.identities_perm.nodup_iff]
  exact represents.balanced.identities_nodup

/-- An object is moved; its function has no name, and its own tag overrides a global one. -/
def movedAllocation : List (Call × Backtrace) :=
  [(.start 0, {}), (.setGlobalTags (.ofList [("env", "prod")]), {}),
    (.allocate ⟨1⟩ [("env", "test")] 0, ⟨[⟨7⟩]⟩), (.relocate ⟨1⟩ ⟨2⟩, {})]

theorem resolve_of_movedAllocation :
    ∃ collector after profile message,
      QuietRun (.uniform [⟨"", "lib.rs", 7⟩]) { sampleRate := 1, compression := .none }
        movedAllocation collector ∧
      Collector.perform (Collector.quiet (.uniform [⟨"", "lib.rs", 7⟩])) collector
        (.flush ⟨0, 0⟩) = .ok (after, .flushed (.ok profile)) ∧
      Pprof.decode profile.bytes = .ok message ∧
      message.resolve = .ok [{
        frames := [{ functionName := "(unknown)", fileName := "lib.rs", line := 7 }]
        tags := [{ key := "env", value := "test" }]
        objects := 1
        sizeBytes := 64 }] := by
  have rate : SampleRate.ofFraction? 1 = some .always := by decide +kernel
  have checked : Settings.validate { sampleRate := 1, compression := .none } =
      .ok ⟨.always, { sampleRate := 1, compression := .none }⟩ := by
    simp [Settings.validate, rate, defaultMaxProfileBytes, TagMap.hasEmptyKey, TagMap.empty]
  have host_fits : (Host.uniform [⟨"", "lib.rs", 7⟩]).Fits := by
    constructor
    · rintro backtrace places ⟨rfl⟩
      decide
    · rintro backtrace places ⟨rfl⟩
      decide
  have calls_fit : ∀ call ∈ movedAllocation, call.1.Fits := by
    simp only [movedAllocation, List.forall_mem_cons]
    refine ⟨trivial, ⟨by decide, by decide⟩, ⟨by decide, by decide⟩, trivial, ?_⟩
    exact List.forall_mem_nil _
  have settings_fit : TagsFit (2 ^ 58) TagMap.empty.entries := ⟨by decide, nofun⟩
  obtain ⟨profile, exported⟩ := Option.isSome_iff_exists.mp
    (show (quietExport? (.uniform [⟨"", "lib.rs", 7⟩]) { sampleRate := 1, compression := .none }
      movedAllocation ⟨0, 0⟩).isSome = true by decide +kernel)
  obtain ⟨collector, after, run, performed⟩ := exists_of_quietExport? exported
  obtain ⟨-, message, decoded, resolves⟩ :=
    resolve_of_flushed checked host_fits settings_fit calls_fit run (.refl _) performed
  refine ⟨collector, after, profile, message, run, performed, decoded, resolves.trans ?_⟩
  exact congrArg Except.ok (by decide +kernel)

end HeapSampler
