import HeapSampler.Collector.Request
import HeapSampler.Export.Encode

/-!
# Flushes

A flush takes a snapshot of the live samples, has those symbolized that are not yet, then has every
symbolized one measured that is still live, and exports the ones that were measured.  A sample that
cannot be symbolized is skipped and keeps its backtrace for the next flush.  If nothing can be
exported the drops that were taken go back, so that the next flush reports them.
-/

namespace HeapSampler

/-- What time it is: in nanoseconds since the epoch, and on a clock that never goes back. -/
structure Clock where
  wall : Int
  instant : Nat
  deriving DecidableEq, Repr

def unknownFunction : String := "(unknown)"

/-- A place as it is interned: a missing function name is replaced. -/
def NamedPlace.withName (place : NamedPlace) : NamedPlace :=
  if place.functionName = "" then { place with functionName := unknownFunction } else place

namespace Tables

def internPlaces (tables : Tables) : List NamedPlace → Except InternError (Tables × List LocationId)
  | [] => .ok (tables, [])
  | place :: rest =>
      match tables.internPlace place.withName with
      | (_, .error cause) => .error cause
      | (tables, .ok id) =>
          (tables.internPlaces rest).map fun (tables, ids) => (tables, id :: ids)

end Tables

namespace Collector

def exportOptions (collector : Collector) (clock : Clock) : ExportOptions where
  timeNanos := clock.wall
  durationNanos := (collector.sessionStart.map (clock.instant - ·)).getD 0
  compression := collector.settings.settings.compression
  maxBytes := collector.settings.settings.maxProfileBytes

/-- Exports the samples that were measured, gives the snapshot back and ends the flush. -/
def finish (collector : Collector) (cycle : Cycle) (included : List Handle) : Stretch := do
  let samples := included.filterMap collector.store.sample?
  let encoded := encodeProfile collector.tables samples cycle.options
  let inventory ← collector.inventory.releaseSnapshot cycle.snapshot
  let collector := { collector with inventory, flushing := false }
  match encoded with
  | .error cause =>
      let store := collector.store.restoreDropped cycle.dropped
      return (collector.withStore store, .replied (.flushed (.error (.encodingFailure cause))))
  | .ok bytes =>
      return (collector, .replied (.flushed (.ok {
        bytes
        sampleCount := included.length
        droppedCount := cycle.dropped
        processedCount := cycle.snapshot.length
        skippedCount := cycle.skipped })))

/-- The identity to ask the host about, if the sample is symbolized and still live. -/
def measurable? (collector : Collector) (handle : Handle) : Option Identity :=
  match collector.store.sample? handle with
  | some sample => if sample.isSymbolized then sample.identity else none
  | none => none

def measureFrom (collector : Collector) (cycle : Cycle) (included : List Handle) :
    List Handle → Stretch
  | [] => collector.finish cycle included.reverse
  | handle :: rest =>
      match collector.measurable? handle with
      | some identity => .ok (collector, .waiting (.measuring cycle included handle identity rest))
      | none => collector.measureFrom cycle included rest

def symbolizeFrom (collector : Collector) (cycle : Cycle) : List Handle → Stretch
  | [] => collector.measureFrom cycle [] cycle.snapshot
  | handle :: rest =>
      match collector.store.sample? handle with
      | none => .error (.missingSample handle)
      | some sample =>
          match sample.backtrace with
          | none => collector.symbolizeFrom cycle rest
          | some backtrace =>
              if sample.isReleased || sample.isSymbolized then collector.symbolizeFrom cycle rest
              else do
                let store ← collector.store.modify handle Sample.withoutBacktrace
                return (collector.withStore store,
                  .waiting (.symbolizing cycle handle backtrace rest))

def flush (collector : Collector) (clock : Clock) : Stretch :=
  if collector.flushing then .ok (collector, .replied (.flushed (.error .alreadyFlushing)))
  else do
    let options := collector.exportOptions clock
    let (snapshot, store) ← collector.store.snapshot
    let (dropped, store) := store.takeDropped
    let collector := { collector.withStore store with flushing := true }
    collector.symbolizeFrom { snapshot, dropped, options } snapshot

/-- Goes on with the places of a sample, or puts its backtrace back if there are none. -/
def resumeSymbolize (collector : Collector) (cycle : Cycle) (handle : Handle)
    (backtrace : Backtrace) (rest : List Handle)
    (answer : Except SymbolizationError (List NamedPlace)) : Stretch :=
  match answer with
  | .error _ =>
      let collector :=
        match collector.store.modify handle (·.withBacktrace backtrace) with
        | .ok store => collector.withStore store
        | .error _ => collector
      collector.symbolizeFrom { cycle with skipped := cycle.skipped + 1 } rest
  | .ok places =>
      match collector.tables.internPlaces places with
      | .error cause => .error (.interning cause)
      | .ok (tables, locations) => do
          let store ← collector.store.modify handle (·.symbolized locations)
          { collector with inventory := { store, tables } : Collector }.symbolizeFrom cycle rest

/-- Goes on with the size of a sample; it is exported if it has one and is still live. -/
def resumeMeasure (collector : Collector) (cycle : Cycle) (included : List Handle)
    (handle : Handle) (rest : List Handle) (answer : Option UInt64) : Stretch :=
  match collector.store.sample? handle, answer with
  | some sample, some size =>
      if sample.isReleased then collector.measureFrom cycle included rest
      else do
        let store ← collector.store.modify handle (·.measured size)
        (collector.withStore store).measureFrom cycle (handle :: included) rest
  | _, _ => collector.measureFrom cycle included rest

end Collector

end HeapSampler
