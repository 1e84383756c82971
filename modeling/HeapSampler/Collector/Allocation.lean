import HeapSampler.Collector.Request

/-!
# Allocation events
-/

namespace HeapSampler

/-- Sets the value of a key: in its place if the key is there, else at the end. -/
def setTag (key value : String) : List (String × String) → List (String × String)
  | [] => [(key, value)]
  | (held, old) :: rest =>
      if held = key then (key, value) :: rest else (held, old) :: setTag key value rest

def overlay (tags others : List (String × String)) : List (String × String) :=
  others.foldl (fun merged (key, value) => setTag key value merged) tags

namespace Tables

def internTag (tables : Tables) (tag : String × String) : Except InternError (Tables × Tag) := do
  let (strings, key) ← tables.strings.intern tag.1
  let (strings, value) ← strings.intern tag.2
  return ({ tables with strings }, { key, value })

def internTags (tables : Tables) : List (String × String) → Except InternError (Tables × List Tag)
  | [] => .ok (tables, [])
  | tag :: rest => do
      let (tables, id) ← tables.internTag tag
      let (tables, ids) ← tables.internTags rest
      return (tables, id :: ids)

end Tables

namespace Collector

/--
An object was allocated.  If the collector runs and the draw is sampled, the backtrace is asked
for, unless the sample would be dropped anyway.
-/
def allocate (collector : Collector) (identity : Identity) (tags : List (String × String))
    (draw : UInt32) : Collector × Progress :=
  if !collector.running || !collector.settings.rate.admits draw then (collector, .replied .noted)
  else if collector.store.isFull && !collector.store.contains identity then
    (collector.withStore collector.store.recordDrop, .replied .noted)
  else (collector, .waiting (.capturing identity tags))

/--
Records the sample once its backtrace is there, with the global tags of this moment overlaid with
its own.  Nothing is recorded if the collector was stopped meanwhile.
-/
def resumeCapture (collector : Collector) (identity : Identity) (tags : List (String × String))
    (backtrace : Backtrace) : Except Breach Collector :=
  if !collector.running then .ok collector
  else
    let merged := overlay collector.settings.settings.globalTags.entries tags
    match collector.tables.internTags merged with
    | .error cause => .error (.interning cause)
    | .ok (tables, ids) => do
        let (inventory, _) ←
          { collector.inventory with tables }.recordAllocation identity ids backtrace
        return { collector with inventory }

def release (collector : Collector) (identity : Identity) : Except Breach Collector := do
  let inventory ← collector.inventory.recordRelease identity
  return { collector with inventory }

def relocate (collector : Collector) (old new : Identity) : Except Breach Collector := do
  let inventory ← collector.inventory.recordRelocation old new
  return { collector with inventory }

end Collector

end HeapSampler
