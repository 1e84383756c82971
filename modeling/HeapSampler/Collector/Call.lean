import HeapSampler.Collector.Allocation
import HeapSampler.Collector.Flush

/-!
# All calls

The calls that change a collector, and how a waiting call goes on.
-/

namespace HeapSampler

inductive Call where
  | allocate (identity : Identity) (tags : List (String × String)) (draw : UInt32)
  | release (identity : Identity)
  | relocate (old new : Identity)
  | start (instant : Nat)
  | stop
  | configure (settings : Settings)
  | setGlobalTags (tags : TagMap)
  | flush (clock : Clock)
  /-- The collector is given up. -/
  | retire

namespace Collector

/-- Starts a session: what an earlier one left is discarded, then events are subscribed to. -/
def start (collector : Collector) (instant : Nat) : Stretch :=
  if collector.running then .ok (collector, .replied (.settled (.error .alreadyRunning)))
  else do
    let inventory ← collector.inventory.clear
    let store := inventory.store.takeDropped.2
    let collector := { collector with
      inventory := { inventory with store }
      running := true
      sessionStart := some instant }
    return (collector, .waiting .subscribing)

def stop (collector : Collector) : Collector × Progress :=
  if collector.running then ({ collector with running := false }, .waiting .unsubscribing)
  else (collector, .replied (.settled (.error .notRunning)))

/-- Gives the collector up; if it runs, events are unsubscribed from. -/
def retire (collector : Collector) : Collector × Progress :=
  if collector.running then ({ collector with running := false }, .waiting .unsubscribing)
  else (collector, .replied (.settled (.ok ())))

def call (collector : Collector) : Call → Stretch
  | .allocate identity tags draw => .ok (collector.allocate identity tags draw)
  | .release identity => (collector.release identity).map (·, .replied .noted)
  | .relocate old new => (collector.relocate old new).map (·, .replied .noted)
  | .start instant => collector.start instant
  | .stop => .ok collector.stop
  | .configure settings =>
      let (collector, result) := collector.configure settings
      .ok (collector, .replied (.settled result))
  | .setGlobalTags tags =>
      let (collector, result) := collector.setGlobalTags tags
      .ok (collector, .replied (.settled result))
  | .flush clock => collector.flush clock
  | .retire => .ok collector.retire

def resume (collector : Collector) : (suspended : Suspended) → suspended.request.Answer → Stretch
  | .capturing identity tags, backtrace =>
      (collector.resumeCapture identity tags backtrace).map (·, .replied .noted)
  | .symbolizing cycle handle backtrace rest, answer =>
      collector.resumeSymbolize cycle handle backtrace rest answer
  | .measuring cycle included handle _ rest, answer =>
      collector.resumeMeasure cycle included handle rest answer
  | .subscribing, _ => .ok (collector, .replied (.settled (.ok ())))
  | .unsubscribing, _ => .ok (collector, .replied (.settled (.ok ())))

end Collector

end HeapSampler
