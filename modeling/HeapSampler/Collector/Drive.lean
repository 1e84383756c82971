import HeapSampler.Collector.Call

/-!
# Calls from beginning to end

Given surroundings that answer every request, a call can be driven to its reply.  A request is
answered in a monad and with the collector at hand, so surroundings can do anything in between,
further calls on the collector included.  Every answer brings a call nearer to its end: a flush
asks at most twice per sample of its snapshot.
-/

namespace HeapSampler

namespace Suspended

/-- The most requests that are still to be answered, the present one included. -/
def remaining : Suspended → Nat
  | symbolizing cycle _ _ rest => rest.length + cycle.snapshot.length + 1
  | measuring _ _ _ _ rest => rest.length + 1
  | capturing _ _ | subscribing | unsubscribing => 1

end Suspended

def Progress.remaining : Progress → Nat
  | replied _ => 0
  | waiting suspended => suspended.remaining

namespace Collector

theorem remaining_of_finish {collector after : Collector} {cycle : Cycle} {included : List Handle}
    {progress : Progress} (ended : collector.finish cycle included = .ok (after, progress)) :
    progress.remaining = 0 := by
  unfold finish at ended
  simp only [bind, Except.bind, pure, Except.pure] at ended
  split at ended
  · simp at ended
  · split at ended <;>
      · simp only [Except.ok.injEq, Prod.mk.injEq] at ended
        simp [← ended.2, Progress.remaining]

theorem remaining_le_of_measureFrom {collector after : Collector} {cycle : Cycle}
    {included rest : List Handle} {progress : Progress}
    (went : collector.measureFrom cycle included rest = .ok (after, progress)) :
    progress.remaining ≤ rest.length := by
  induction rest generalizing included with
  | nil =>
      have := remaining_of_finish went
      omega
  | cons handle rest ih =>
      simp only [measureFrom] at went
      split at went
      · simp only [Except.ok.injEq, Prod.mk.injEq] at went
        simp [← went.2, Progress.remaining, Suspended.remaining]
      · have := ih went
        simp only [List.length_cons]
        omega

theorem remaining_le_of_symbolizeFrom {collector after : Collector} {cycle : Cycle}
    {rest : List Handle} {progress : Progress}
    (went : collector.symbolizeFrom cycle rest = .ok (after, progress)) :
    progress.remaining ≤ rest.length + cycle.snapshot.length := by
  induction rest with
  | nil =>
      have := remaining_le_of_measureFrom went
      omega
  | cons handle rest ih =>
      simp only [symbolizeFrom] at went
      simp only [List.length_cons]
      split at went
      · simp at went
      · split at went
        · have := ih went
          omega
        · split at went
          · have := ih went
            omega
          · simp only [bind, Except.bind, pure, Except.pure] at went
            split at went
            · simp at went
            · simp only [Except.ok.injEq, Prod.mk.injEq] at went
              rw [← went.2]
              simp only [Progress.remaining, Suspended.remaining]
              omega

/-- An answer leaves fewer requests to be answered. -/
theorem remaining_lt_of_resume {collector after : Collector} {suspended : Suspended}
    {answer : suspended.request.Answer} {progress : Progress}
    (went : collector.resume suspended answer = .ok (after, progress)) :
    progress.remaining < suspended.remaining := by
  cases suspended with
  | capturing identity tags =>
      simp only [resume, Except.map] at went
      split at went
      · simp at went
      · simp only [Except.ok.injEq, Prod.mk.injEq] at went
        simp [← went.2, Progress.remaining, Suspended.remaining]
  | symbolizing cycle handle backtrace rest =>
      simp only [resume, resumeSymbolize] at went
      simp only [Suspended.remaining]
      split at went
      · have := remaining_le_of_symbolizeFrom went
        simp only at this
        omega
      · split at went
        · simp at went
        · simp only [bind, Except.bind] at went
          split at went
          · simp at went
          · have := remaining_le_of_symbolizeFrom went
            omega
  | measuring cycle included handle identity rest =>
      simp only [resume, resumeMeasure] at went
      simp only [Suspended.remaining]
      split at went
      · split at went
        · have := remaining_le_of_measureFrom went
          omega
        · simp only [bind, Except.bind] at went
          split at went
          · simp at went
          · have := remaining_le_of_measureFrom went
            omega
      · have := remaining_le_of_measureFrom went
        omega
  | subscribing =>
      simp only [resume, Except.ok.injEq, Prod.mk.injEq] at went
      simp [← went.2, Progress.remaining, Suspended.remaining]
  | unsubscribing =>
      simp only [resume, Except.ok.injEq, Prod.mk.injEq] at went
      simp [← went.2, Progress.remaining, Suspended.remaining]

/-- Surroundings of a collector: what answers each request, and what becomes of the collector. -/
abbrev Surroundings (m : Type → Type) :=
  (request : Request) → Collector → m (Collector × request.Answer)

def quiet (host : Host) : Surroundings Id :=
  fun request collector => (collector, host.answer request)

variable {m : Type → Type} [Monad m]

def drive (answer : Surroundings m) (collector : Collector) (progress : Progress) :
    m (Except Breach (Collector × Reply)) :=
  match progress with
  | .replied reply => pure (.ok (collector, reply))
  | .waiting suspended => do
      let (collector, given) ← answer suspended.request collector
      match _went : collector.resume suspended given with
      | .error breach => pure (.error breach)
      | .ok (collector, progress) => drive answer collector progress
termination_by progress.remaining
decreasing_by exact remaining_lt_of_resume _went

def perform (answer : Surroundings m) (collector : Collector) (call : Call) :
    m (Except Breach (Collector × Reply)) :=
  match collector.call call with
  | .error breach => pure (.error breach)
  | .ok (collector, progress) => drive answer collector progress

/-- The outcome of a session around some work, from what the calls at its end replied. -/
def sessionOutcome {α : Type} (value : α) (flushed stopped : Reply) :
    Except CollectorError (α × ExportedProfile) :=
  match stopped, flushed with
  | .settled (.error .notRunning), .flushed (.ok profile) => .ok (value, profile)
  | .settled (.error .notRunning), .flushed (.error cause) => .error (.flush cause)
  | .settled (.error cause), _ => .error cause
  | _, .flushed (.ok profile) => .ok (value, profile)
  | _, .flushed (.error cause) => .error (.flush cause)
  | _, _ => .error .notRunning

/--
Starts a session, does some work, flushes and stops.  It does not matter if the work has stopped
the session itself; if the flush fails the session is stopped all the same.
-/
def profile {α : Type} (answer : Surroundings m) (collector : Collector) (instant : Nat)
    (clock : m Clock) (work : Collector → m (Collector × α)) :
    m (Except Breach (Collector × Except CollectorError (α × ExportedProfile))) := do
  match ← perform answer collector (.start instant) with
  | .error breach => return .error breach
  | .ok (collector, .settled (.error cause)) => return .ok (collector, .error cause)
  | .ok (collector, _) =>
      let (collector, value) ← work collector
      match ← perform answer collector (.flush (← clock)) with
      | .error breach => return .error breach
      | .ok (collector, flushed) =>
          match ← perform answer collector .stop with
          | .error breach => return .error breach
          | .ok (collector, stopped) =>
              return .ok (collector, sessionOutcome value flushed stopped)

end Collector

end HeapSampler
