import HeapSampler.Collector.Basic

/-!
# Calls that wait for the host

A call on a collector runs until it needs something from its surroundings.  It then hands out the
collector together with a note of where it stopped, and goes on when the answer comes.  In between
the surroundings may make any number of further calls on the collector, each of which may wait in
its turn.
-/

namespace HeapSampler

inductive Request where
  /-- The current call stack, leaf first. -/
  | captureBacktrace
  /-- The places that a backtrace stands for. -/
  | symbolize (backtrace : Backtrace)
  /-- The size of a live object. -/
  | objectSize (identity : Identity)
  /-- To deliver allocation events from now on. -/
  | subscribe
  /-- To deliver no more allocation events. -/
  | unsubscribe
  deriving DecidableEq, Repr

def Request.Answer : Request → Type
  | captureBacktrace => Backtrace
  | symbolize _ => Except SymbolizationError (List NamedPlace)
  | objectSize _ => Option UInt64
  | subscribe | unsubscribe => Unit

/-- A host whose answers depend on nothing but the question. -/
structure Host where
  stack : Backtrace
  symbolize : Backtrace → Except SymbolizationError (List NamedPlace)
  objectSize : Identity → Option UInt64

def Host.answer (host : Host) : (request : Request) → request.Answer
  | .captureBacktrace => host.stack
  | .symbolize backtrace => host.symbolize backtrace
  | .objectSize identity => host.objectSize identity
  | .subscribe | .unsubscribe => ()

structure Cycle where
  /-- The samples that were live when it began; the flush owns them. -/
  snapshot : List Handle
  /-- The drops that it took from the store. -/
  dropped : Nat
  options : ExportOptions
  /-- How many samples could not be symbolized. -/
  skipped : Nat := 0
  deriving DecidableEq, Repr

/-- A call that waits for an answer. -/
inductive Suspended where
  | capturing (identity : Identity) (tags : List (String × String))
  /-- The sample's backtrace is out with the request; `rest` is still to be symbolized. -/
  | symbolizing (cycle : Cycle) (handle : Handle) (backtrace : Backtrace) (rest : List Handle)
  /-- `included` is to be exported, the sample measured last in front; `rest` is to be measured. -/
  | measuring (cycle : Cycle) (included : List Handle) (handle : Handle) (identity : Identity)
      (rest : List Handle)
  | subscribing
  | unsubscribing
  deriving DecidableEq, Repr

def Suspended.request : Suspended → Request
  | capturing _ _ => .captureBacktrace
  | symbolizing _ _ backtrace _ => .symbolize backtrace
  | measuring _ _ _ identity _ => .objectSize identity
  | subscribing => .subscribe
  | unsubscribing => .unsubscribe

structure ExportedProfile where
  bytes : List UInt8
  /-- The samples in `bytes`. -/
  sampleCount : Nat
  /-- The allocations that found no room since the flush before. -/
  droppedCount : Nat
  /-- The samples that were live when the flush began. -/
  processedCount : Nat
  /-- The samples that could not be symbolized and are left for the next flush. -/
  skippedCount : Nat
  deriving DecidableEq, Repr

inductive Reply where
  /-- An event has been taken note of. -/
  | noted
  /-- A call that is obeyed or refused. -/
  | settled (result : Except CollectorError Unit)
  | flushed (result : Except FlushError ExportedProfile)

inductive Progress where
  | replied (reply : Reply)
  | waiting (suspended : Suspended)

/-- One stretch of a call, from the caller or an answer to the next request or the reply. -/
abbrev Stretch := Except Breach (Collector × Progress)

end HeapSampler
