import Mathlib
import HeapSampler.Proofs.Collector.Stretch

/-!
# What a flush leaves alone

No stretch of a flush touches whether the collector runs, its settings, its session or its bound.
-/

namespace HeapSampler.Collector

variable {collector after : Collector} {cycle : Cycle} {included rest : List Handle}
  {progress : Progress}

structure Framed (before after : Collector) : Prop where
  running_eq : after.running = before.running
  settings_eq : after.settings = before.settings
  sessionStart_eq : after.sessionStart = before.sessionStart
  maxSamples_eq : after.store.maxSamples = before.store.maxSamples

theorem Framed.refl (collector : Collector) : collector.Framed collector := ⟨rfl, rfl, rfl, rfl⟩

theorem Finishes.framed (finished : Finishes collector cycle included after progress)
    (balanced : collector.inventory.Balanced [] cycle.snapshot []) : collector.Framed after := by
  rw [← List.append_nil cycle.snapshot] at balanced
  obtain ⟨inventory, released', -, -, aged⟩ := balanced.releaseSnapshot
  cases finished with
  | exported encoded released =>
      cases released.symm.trans released'
      exact ⟨rfl, rfl, rfl, aged.maxSamples_eq⟩
  | failed encoded released =>
      cases released.symm.trans released'
      exact ⟨rfl, rfl, rfl, aged.maxSamples_eq⟩

theorem MeasuresNext.framed (next : MeasuresNext collector cycle included rest after progress)
    (balanced : collector.inventory.Balanced [] cycle.snapshot []) : collector.Framed after := by
  cases next with
  | waits passed none_before found => exact .refl _
  | finishes none_left finished => exact (Collector.finishes finished).framed balanced

theorem SymbolizesNext.framed (next : SymbolizesNext collector cycle rest after progress)
    (balanced : collector.inventory.Balanced [] cycle.snapshot []) : collector.Framed after := by
  cases next with
  | waits passed settled found present unreleased unsymbolized modified =>
      obtain ⟨arena, modified', -⟩ :=
        balanced.touch Sample.withoutBacktrace found rfl rfl (.inr rfl) rfl rfl
      cases modified.symm.trans modified'
      exact ⟨rfl, rfl, rfl, rfl⟩
  | measures settled next => exact next.framed balanced

theorem framed_of_flush {clock : Clock} (idle : collector.flushing = false)
    (balanced : collector.inventory.Balanced [] [] [])
    (went : collector.flush clock = .ok (after, progress)) : collector.Framed after := by
  obtain ⟨arena, begun, -, balanced'⟩ := flush_of_idle idle balanced clock
  exact { (symbolizesNext (begun.symm.trans went)).framed balanced' with }

theorem framed_of_resumeSymbolize {handle : Handle} {backtrace : Backtrace}
    {answer : Except SymbolizationError (List NamedPlace)}
    (balanced : collector.inventory.Balanced [] cycle.snapshot [])
    (sound : Suspended.Sound collector.inventory (.symbolizing cycle handle backtrace rest))
    (went : collector.resumeSymbolize cycle handle backtrace rest answer = .ok (after, progress)) :
    collector.Framed after := by
  obtain ⟨-, -, sample, found, unsymbolized⟩ := sound
  cases answer with
  | error cause =>
      obtain ⟨arena, resumed, -, balanced'⟩ :=
        resumeSymbolize_of_error balanced found backtrace rest cause
      exact { (symbolizesNext (resumed.symm.trans went)).framed balanced' with }
  | ok places =>
      rcases resumeSymbolize_of_places balanced found unsymbolized backtrace rest places with
        ⟨cause, -, refused⟩ | ⟨tables, locations, arena, -, resumed, -, balanced'⟩
      · cases refused.symm.trans went
      · exact { (symbolizesNext (resumed.symm.trans went)).framed balanced' with }

theorem framed_of_resumeMeasure {handle : Handle} {answer : Option UInt64}
    (balanced : collector.inventory.Balanced [] cycle.snapshot [])
    (went : collector.resumeMeasure cycle included handle rest answer = .ok (after, progress)) :
    collector.Framed after := by
  rcases resumeMeasure_cases balanced handle included rest answer with
    resumed | ⟨sample, size, arena, -, -, -, resumed, -, balanced'⟩
  · exact (measuresNext (resumed.symm.trans went)).framed balanced
  · exact { (measuresNext (resumed.symm.trans went)).framed balanced' with }

theorem framed_of_resume {suspended : Suspended} {answer : suspended.request.Answer}
    (inside : suspended.cycle? = some cycle)
    (balanced : collector.inventory.Balanced [] cycle.snapshot [])
    (sound : suspended.Sound collector.inventory)
    (went : collector.resume suspended answer = .ok (after, progress)) :
    collector.Framed after := by
  cases suspended with
  | symbolizing own handle backtrace rest =>
      cases inside
      exact framed_of_resumeSymbolize balanced sound went
  | measuring own included handle identity rest =>
      cases inside
      exact framed_of_resumeMeasure balanced went
  | capturing => cases inside
  | subscribing => cases inside
  | unsubscribing => cases inside

end HeapSampler.Collector
