import HeapSampler.Collector.Error
import HeapSampler.Store.Inventory

/-!
# Collectors

A collector samples allocations while it runs and exports what is still live, running or not.
-/

namespace HeapSampler

structure Collector where
  inventory : Inventory
  settings : ValidSettings
  running : Bool := false
  /-- When the last session started. -/
  sessionStart : Option Nat := none
  /-- Whether a flush is under way. -/
  flushing : Bool := false

structure MemoryUsage where
  samples : Nat := 0
  strings : Nat := 0
  functions : Nat := 0
  deriving DecidableEq, Repr

def MemoryUsage.total (usage : MemoryUsage) : Nat :=
  usage.samples + usage.strings + usage.functions

namespace Collector

/-- A collector that does not run, if the settings are valid. -/
def create (settings : Settings) : Except CollectorError Collector :=
  match settings.validate with
  | .ok valid =>
      .ok { inventory := { store := { maxSamples := settings.maxSamples } }, settings := valid }
  | .error cause => .error (.configuration cause)

def store (collector : Collector) : Store := collector.inventory.store

def tables (collector : Collector) : Tables := collector.inventory.tables

def withStore (collector : Collector) (store : Store) : Collector :=
  { collector with inventory := { collector.inventory with store } }

def sampleRate (collector : Collector) : Float := collector.settings.rate.fraction

def memoryUsage (collector : Collector) : MemoryUsage where
  samples := collector.store.memoryUsage
  strings := collector.tables.strings.memoryUsage
  functions := collector.tables.functions.memoryUsage

def describe (collector : Collector) : String :=
  Text.openRecord "Collector"
    [("running", Text.truth collector.running), ("store", collector.store.describe)]

/--
Replaces the settings, unless the new ones are not valid.  Samples above a lower bound stay, and
global tags govern only samples still to be taken.
-/
def configure (collector : Collector) (settings : Settings) :
    Collector × Except CollectorError Unit :=
  match settings.validate with
  | .error cause => (collector, .error (.configuration cause))
  | .ok valid =>
      let store := collector.store.setMaxSamples settings.maxSamples
      ({ collector.withStore store with settings := valid }, .ok ())

/-- Replaces the tags of all samples still to be taken, unless some key is empty. -/
def setGlobalTags (collector : Collector) (tags : TagMap) :
    Collector × Except CollectorError Unit :=
  if tags.hasEmptyKey then (collector, .error (.configuration .emptyTagKey))
  else ({ collector with settings := collector.settings.withGlobalTags tags }, .ok ())

/--
The copy of a collector in a forked child process.  A flush under way belongs to the parent and
will never end in the child, so it does not count there.
-/
def inChild (collector : Collector) : Collector :=
  { collector with flushing := false }

end Collector

end HeapSampler
