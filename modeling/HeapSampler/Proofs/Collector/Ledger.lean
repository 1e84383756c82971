import Mathlib
import HeapSampler.Proofs.Collector.Runs

/-!
# The ledger of references

On every run the count of each interned place and of each interned string is the number of its
uses, and nothing is interned that is not used.  With no sample left both tables are empty.
-/

namespace HeapSampler

namespace Inventory

def placeUses (inventory : Inventory) (id : LocationId) : Nat :=
  (inventory.store.arena.samples.flatMap Sample.locations).count id

def tagUses (inventory : Inventory) (id : StringId) : Nat :=
  let tags := inventory.store.arena.samples.flatMap Sample.tags
  (tags.map Tag.key).count id + (tags.map Tag.value).count id

def nameUses (inventory : Inventory) (id : StringId) : Nat :=
  (inventory.tables.functions.set.entries.map fun entry => entry.2.key.name).count id

def fileUses (inventory : Inventory) (id : StringId) : Nat :=
  (inventory.tables.functions.set.entries.map fun entry => entry.2.key.file).count id

/-- Each count in the tables is the number of uses; an id without uses has no entry. -/
structure Exact (inventory : Inventory) : Prop where
  places : ∀ id, inventory.tables.functions.count? id = expectedCount (inventory.placeUses id)
  strings : ∀ id, id ≠ .empty → inventory.tables.strings.count? id =
    expectedCount (inventory.tagUses id + inventory.nameUses id + inventory.fileUses id)

def Vacant (inventory : Inventory) : Prop :=
  inventory.tables.strings.isEmpty = true ∧ inventory.tables.functions.isEmpty = true

end Inventory

namespace Inventory.Balanced

variable {inventory : Inventory} {held : List Handle}

theorem count_texts (inventory : Inventory) (id : StringId) :
    inventory.texts.count id = inventory.tagUses id := by
  have flattened : inventory.texts =
      (inventory.store.arena.samples.flatMap Sample.tags).flatMap
        fun tag => [tag.key, tag.value] := by
    rw [List.flatMap_assoc]
    rfl
  rw [flattened, count_flatMap_pair]
  rfl

theorem count_function_texts (inventory : Inventory) (id : StringId) :
    inventory.tables.functions.texts.count id = inventory.nameUses id + inventory.fileUses id :=
  inventory.tables.functions.count_texts id

theorem exact_ledger (balanced : inventory.Balanced [] held []) : inventory.Exact where
  places id := by
    refine (balanced.tables.functions.count?_eq id.value).trans ?_
    rw [balanced.tables.references_place id]
    rfl
  strings id named := by
    refine (balanced.tables.strings.count?_eq id.value).trans ?_
    rw [balanced.tables.references_text id named, List.nil_append, List.count_append, count_texts,
      count_function_texts, ← Nat.add_assoc]

/-- Without samples nothing is interned. -/
theorem vacant (balanced : inventory.Balanced [] [] []) (none_live : inventory.store.live = []) :
    inventory.Vacant := by
  have owners := balanced.owners
  rw [none_live] at owners
  have no_samples : inventory.store.arena.samples = [] := owners.samples_eq_nil
  have no_places : inventory.tables.functions.set.keys = [] := by
    refine balanced.tables.functions.keys_eq_nil fun id => ?_
    rw [balanced.tables.references_place ⟨id⟩, places, no_samples]
    rfl
  have no_texts : inventory.tables.strings.set.keys = [] := by
    refine balanced.tables.strings.keys_eq_nil fun id => ?_
    cases id with
    | zero => rfl
    | succ index =>
        rw [balanced.tables.references_text ⟨index + 1⟩ (by simp [StringId.empty]), texts,
          no_samples, FunctionTable.texts, no_places]
        rfl
  constructor
  · simp [StringTable.isEmpty, StringTable.size, balanced.tables.strings.size_eq_length, no_texts]
  · simp [FunctionTable.isEmpty, FunctionTable.size, balanced.tables.functions.size_eq_length,
      no_places]

end Inventory.Balanced

/--
At every moment of every run the counts of the tables are exact.  With no flush under way and
nothing live both tables are empty, which is so after the beginning of a session in particular.
-/
theorem ledger_exact_of_run {settings : Settings} {history : List Moment} {machine : Machine}
    (run : Run settings history machine) :
    machine.collector.inventory.Exact ∧
    (machine.collector.flushing = false → machine.collector.store.live = [] →
      machine.collector.inventory.Vacant) ∧
    ∀ (instant : Nat) (progress : Progress) (after : Machine),
      machine.step? (.call (.start instant)) = some (progress, after) →
      machine.collector.running = false → machine.collector.flushing = false →
      after.collector.inventory.Vacant := by
  have sound := run.sound
  refine ⟨sound.balanced.exact_ledger,
    fun idle none_live => (sound.balanced_idle idle).vacant none_live, ?_⟩
  intro instant progress after stepped stopped idle
  obtain ⟨went, -⟩ := Machine.step?_call stepped
  have after_sound := sound.step stepped
  rcases Collector.start_cases (sound.balanced_idle idle) went with
    ⟨running, -, -⟩ | ⟨-, -, cleared, -, none_live, -, after_eq⟩
  · rw [running] at stopped
    cases stopped
  · have idle_after : after.collector.flushing = false := by rw [after_eq]; exact idle
    have none_live_after : after.collector.store.live = [] := by rw [after_eq]; exact none_live
    exact (after_sound.balanced_idle idle_after).vacant none_live_after

/-- A tagged object is released while it is measured, and then the session is stopped. -/
def releasedWhileMeasured : List Move :=
  let answer := Move.answer (.uniform [⟨"work", "work.rb", 7⟩])
  [.call (.start 0), answer, .call (.allocate ⟨1⟩ [("kind", "page")] 0), answer,
    .call (.flush ⟨0, 0⟩), answer, .call (.release ⟨1⟩), answer, .call .stop, answer]

theorem ledger_exact_of_releasedWhileMeasured :
    ∃ history machine,
      replay { sampleRate := 1, compression := .none } releasedWhileMeasured =
        some (history, machine) ∧
      machine.collector.inventory.Exact ∧ machine.collector.inventory.Vacant ∧
      ∃ progress after, machine.step? (.call (.start 1)) = some (progress, after) ∧
        after.collector.inventory.Vacant := by
  obtain ⟨history, machine, replayed, checked⟩ := exists_of_replay
    { sampleRate := 1, compression := .none } releasedWhileMeasured
    (fun run => !run.2.collector.flushing && run.2.collector.store.live.isEmpty &&
      !run.2.collector.running && (run.2.step? (.call (.start 1))).isSome) (by decide +kernel)
  simp only [Bool.and_eq_true, Bool.not_eq_true', List.isEmpty_iff] at checked
  obtain ⟨⟨⟨idle, none_live⟩, stopped⟩, starts⟩ := checked
  obtain ⟨⟨progress, after⟩, stepped⟩ := Option.isSome_iff_exists.mp starts
  obtain ⟨exact_, vacant, restarted⟩ := ledger_exact_of_run (Run.of_replay replayed)
  exact ⟨history, machine, replayed, exact_, vacant idle none_live, progress, after, stepped,
    restarted 1 progress after stepped stopped idle⟩

end HeapSampler
