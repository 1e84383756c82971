import Mathlib
import HeapSampler.Proofs.Lists
import HeapSampler.Proofs.Intern.Exhaustion
import HeapSampler.Proofs.Intern.Reachable

/-!
# The life of a string under its id

A string that is interned for the first time gets an id, and from then on each interning of it and
each retaining of the id is counted against each release.  When the count is at zero the string
is gone, and only then the id may stand for another string.  The callers decide which ids they
name: some may be stale, and some may never have been given out.
-/

namespace HeapSampler

/-! ## Single entries -/

namespace InternSet

variable {κ : Type} {set after : InternSet κ} {id : Nat} {key : κ} {last : Option κ}

theorem get?_of_retain (retained : set.retain id = .ok after) :
    ∃ old, set.get? id = some old ∧ ∀ other, after.get? other =
      if other = id then some { old with count := old.count + 1 } else set.get? other := by
  unfold InternSet.retain at retained
  split at retained
  · cases retained
  · rename_i old present
    split at retained
    · cases retained
      exact ⟨old, present, get?_replace present _⟩
    · cases retained

/-- A key that is there gets another reference; one that is not gets an id that nothing has. -/
theorem Sound.get?_of_intern [DecidableEq κ] (sound : set.Sound)
    (interned : set.intern key = .ok (after, id)) :
    (∃ old, set.get? id = some old ∧ old.key = key ∧ ∀ other, after.get? other =
        if other = id then some { old with count := old.count + 1 } else set.get? other) ∨
      set.get? id = none ∧ (∀ other, set.key? other ≠ some key) ∧ ∀ other, after.get? other =
        if other = id then some { key, count := 1 } else set.get? other := by
  unfold InternSet.intern at interned
  split at interned
  · rename_i place found
    obtain ⟨reached, retained, ⟨⟩⟩ := exists_ok_of_map interned
    obtain ⟨old, present, others⟩ := get?_of_retain retained
    have held := sound.find?_eq_some_iff.mp found
    rw [key?, present] at held
    exact .inl ⟨old, present, Option.some.inj held, others⟩
  · rename_i absent
    unfold add at interned
    split at interned
    · cases interned
      exact .inr ⟨sound.slab.get?_next, sound.find?_eq_none_iff.mp absent, sound.get?_fill _ _⟩
    · cases interned

end InternSet

namespace StringTable

/-! ## Calls in a row -/

inductive Call where
  | intern (text : String)
  | find (text : String)
  | retain (id : StringId)
  | release (id : StringId)
  | lookup (id : StringId)
  | count (id : StringId)
  deriving DecidableEq

inductive Answer where
  | named (id : StringId)
  | done
  | found (id : Option StringId)
  | text (text : Option String)
  | counted (count : Option Nat)
  deriving DecidableEq

def perform (table : StringTable) : Call → Except InternError (StringTable × Answer)
  | .intern text => (table.intern text).map fun (after, id) => (after, .named id)
  | .find text => .ok (table, .found (table.find? text))
  | .retain id => (table.retain id).map fun after => (after, .done)
  | .release id => (table.release id).map fun after => (after, .done)
  | .lookup id => .ok (table, .text (table.lookup? id))
  | .count id => .ok (table, .counted (table.count? id))

structure Moment where
  before : StringTable
  call : Call

namespace Moment

def outcome (moment : Moment) : Except InternError (StringTable × Answer) :=
  moment.before.perform moment.call

def after (moment : Moment) : StringTable :=
  match moment.outcome with
  | .ok (table, _) => table
  | .error _ => moment.before

/-- Whether the moment is a given call, and one that has not failed. -/
def made (call : Call) (moment : Moment) : Bool :=
  decide (moment.call = call) && moment.outcome.isOk

/-- The string that has been given the id, if nothing had the id before. -/
def issued? (id : StringId) (moment : Moment) : Option String :=
  match moment.call, moment.outcome with
  | .intern text, .ok (_, .named given) =>
      if given = id ∧ moment.before.lookup? id = none then some text else none
  | _, _ => none

end Moment

def reached : List Call → StringTable
  | [] => {}
  | call :: earlier => (Moment.mk (reached earlier) call).after

def moments : List Call → List Moment
  | [] => []
  | call :: earlier => ⟨reached earlier, call⟩ :: moments earlier

/-- A string under an id, and what has been done since it was given the id. -/
structure Life where
  text : String
  since : List Moment

/-- One for being given the id, one for each later interning of the string and for each retaining of
the id, less one for each release. -/
def Life.references (life : Life) (id : StringId) : Int :=
  1 + life.since.countP (·.made (.intern life.text)) + life.since.countP (·.made (.retain id)) -
    life.since.countP (·.made (.release id))

def life? (id : StringId) : List Moment → Option Life
  | [] => none
  | moment :: earlier =>
      match moment.issued? id with
      | some text => some ⟨text, []⟩
      | none => (life? id earlier).map fun life => { life with since := moment :: life.since }

/-! ## One call and one entry -/

section Calls

variable {table after : StringTable} {text : String} {id : StringId}

theorem Sound.intern_cases (sound : table.Sound) (interned : table.intern text = .ok (after, id)) :
    text = "" ∧ id = .empty ∧ after = table ∨
      text ≠ "" ∧ id ≠ .empty ∧ table.set.intern text = .ok (after.set, id.value) := by
  unfold StringTable.intern at interned
  split at interned
  · rename_i blank
    cases interned
    exact .inl ⟨blank, rfl, rfl⟩
  · rename_i worded
    obtain ⟨⟨set, number⟩, went, ⟨⟩⟩ := exists_ok_of_map interned
    have held := (sound.set.gains_of_intern went).1.key?_self
    refine .inr ⟨worded, ?_, went⟩
    rintro ⟨⟩
    cases held

theorem retain_cases (retained : table.retain id = .ok after) :
    id = .empty ∧ after = table ∨
      id ≠ .empty ∧ table.set.retain id.value = .ok after.set := by
  unfold StringTable.retain at retained
  split at retained
  · rename_i blank
    cases retained
    exact .inl ⟨blank, rfl⟩
  · rename_i named
    obtain ⟨set, went, rfl⟩ := exists_ok_of_map retained
    exact .inr ⟨named, went⟩

end Calls

namespace Moment

variable {moment : Moment} {id : StringId}

def change (text : String) (id : StringId) (moment : Moment) : Int :=
  (if moment.made (.intern text) then 1 else 0) + (if moment.made (.retain id) then 1 else 0) -
    if moment.made (.release id) then 1 else 0

theorem after_of_ok {table : StringTable} {answer : Answer}
    (went : moment.outcome = .ok (table, answer)) : moment.after = table := by
  rw [after, went]

theorem after_of_error {cause : InternError} (failed : moment.outcome = .error cause) :
    moment.after = moment.before := by
  rw [after, failed]

theorem sound_after (sound : moment.before.Sound) : moment.after.Sound := by
  cases went : moment.outcome with
  | error cause =>
      rw [after_of_error went]
      exact sound
  | ok reached =>
      rw [after_of_ok went]
      rw [outcome] at went
      cases call_eq : moment.call <;> rw [call_eq] at went
      case intern text =>
        obtain ⟨own, interned, rfl⟩ := exists_ok_of_map went
        exact sound.intern interned
      case retain id =>
        obtain ⟨own, retained, rfl⟩ := exists_ok_of_map went
        exact sound.retain retained
      case release id =>
        obtain ⟨own, released, rfl⟩ := exists_ok_of_map went
        exact sound.release released
      all_goals
        cases went
        exact sound

end Moment

/-! ## Calls in a row -/

theorem Life.references_cons (text : String) (id : StringId) (moment : Moment)
    (since : List Moment) :
    (Life.mk text (moment :: since)).references id =
      (Life.mk text since).references id + moment.change text id := by
  simp only [Life.references, Moment.change, List.countP_cons]
  split <;> split <;> split <;> push_cast <;> ring

structure Moment.Keeps (moment : Moment) (earlier : List Moment) : Prop where
  /-- A string leaves when the number of its references reaches zero, and not before. -/
  ends : ∀ {id : StringId} {text : String}, id ≠ .empty → moment.before.lookup? id = some text →
    ∃ life, life? id (moment :: earlier) = some life ∧ life.text = text ∧
      (life.references id ≠ 0 → moment.after.lookup? id = some text) ∧
      (life.references id = 0 → moment.after.lookup? id = none ∧
        moment.after.find? text = none ∧ moment.after.count? id = none)
  /-- An id is given to the string that has it, or to one if none has it. -/
  issues : ∀ {text : String} {after : StringTable} {id : StringId},
    moment.outcome = .ok (after, .named id) → moment.call = .intern text →
    after.lookup? id = some text ∧
      (moment.before.lookup? id = none ∨ moment.before.lookup? id = some text)
  /-- Only an unknown id, a full count or the end of the ids makes a call fail. -/
  fails : ∀ {cause : InternError}, moment.outcome = .error cause → moment.after = moment.before ∧
    (cause.IsExhaustion ∨ ∃ id, moment.before.lookup? id = none ∧ cause = .unknownId id.value ∧
      (moment.call = .retain id ∨ moment.call = .release id))

section Shown

variable {table : StringTable} {id : StringId} {text : String}

theorem Sound.ne_empty (sound : table.Sound) (named : id ≠ .empty)
    (held : table.lookup? id = some text) : text ≠ "" := by
  rintro rfl
  rw [lookup?_eq_key? _ named] at held
  exact sound.unblank (InternSet.mem_keys.mpr ⟨_, held⟩)

theorem Sound.find?_iff (sound : table.Sound) (text : String) (id : StringId) :
    table.find? text = some id ↔ table.lookup? id = some text := by
  constructor
  · exact Tables.lookup?_of_find? sound.set
  · intro held
    refine Tables.find?_of_lookup? sound.set held fun blank => ?_
    by_contra named
    exact sound.ne_empty named held blank

/-- As many strings are counted as there are under ids, the empty one left out. -/
theorem Sound.size_eq (sound : table.Sound) : ∃ texts : Finset String,
    table.size = texts.card ∧
    ∀ text, text ∈ texts ↔ text ≠ "" ∧ ∃ id, table.lookup? id = some text := by
  refine ⟨table.set.keys.toFinset, ?_, fun text => ?_⟩
  · rw [List.toFinset_card_of_nodup sound.set.keys_nodup]
    exact sound.set.size_eq_length
  · rw [List.mem_toFinset, InternSet.mem_keys]
    constructor
    · rintro ⟨value, held⟩
      have named : StringId.mk value ≠ .empty := by
        rintro ⟨⟩
        cases held
      rw [← lookup?_eq_key? table named] at held
      exact ⟨sound.ne_empty named held, _, held⟩
    · rintro ⟨worded, id, held⟩
      have named : id ≠ .empty := by
        rintro rfl
        exact worded (Option.some.inj held).symm
      rw [lookup?_eq_key? _ named] at held
      exact ⟨_, held⟩

end Shown

theorem Sound.exhausted_of_intern {table : StringTable} (sound : table.Sound) {text : String}
    {cause : InternError} (failed : table.intern text = .error cause) : cause.IsExhaustion := by
  unfold StringTable.intern at failed
  split at failed
  · cases failed
  · exact (sound.set.spent_of_intern (error_of_map failed)).isExhaustion

/-- Adding a reference fails at an unknown id or at a full count. -/
theorem fails_of_retain {table : StringTable} {id : StringId} {cause : InternError}
    (failed : table.retain id = .error cause) :
    table.set.Spent cause ∨ table.lookup? id = none ∧ cause = .unknownId id.value := by
  unfold StringTable.retain at failed
  split at failed
  · cases failed
  · rename_i named
    have set_failed := error_of_map failed
    rw [lookup?_eq_key? _ named]
    cases held : table.set.key? id.value with
    | some text => exact .inl (InternSet.spent_of_retain held set_failed)
    | none =>
        rw [InternSet.retain, Option.map_eq_none_iff.mp held] at set_failed
        exact .inr ⟨rfl, (Except.error.inj set_failed).symm⟩

/-- Giving back a reference fails at an unknown id only. -/
theorem fails_of_release {table : StringTable} {id : StringId} {cause : InternError}
    (failed : table.release id = .error cause) :
    table.lookup? id = none ∧ cause = .unknownId id.value := by
  unfold StringTable.release at failed
  split at failed
  · cases failed
  · rename_i named
    have set_failed := error_of_map failed
    rw [lookup?_eq_key? _ named]
    unfold InternSet.release at set_failed
    split at set_failed
    · rename_i vacant
      rw [InternSet.key?, vacant]
      exact ⟨rfl, (Except.error.inj set_failed).symm⟩
    · split at set_failed <;> cases set_failed

/-- Whoever is given an id finds the string under it. -/
theorem Sound.lookup?_of_intern {table after : StringTable} (sound : table.Sound) {text : String}
    {id : StringId} (interned : table.intern text = .ok (after, id)) :
    after.lookup? id = some text ∧
      (table.lookup? id = none ∨ table.lookup? id = some text) := by
  obtain ⟨rfl, rfl, rfl⟩ | ⟨-, named, went⟩ := sound.intern_cases interned
  · exact ⟨rfl, .inr rfl⟩
  · rw [lookup?_eq_key? _ named, lookup?_eq_key? _ named, InternSet.key?, InternSet.key?]
    obtain ⟨old, present, rfl, entries⟩ | ⟨vacant, -, entries⟩ := sound.set.get?_of_intern went
    · rw [entries, if_pos rfl, present]
      exact ⟨rfl, .inr rfl⟩
    · rw [entries, if_pos rfl, vacant]
      exact ⟨rfl, .inl rfl⟩

/-- Two references to one string, both given back; its id is stale for once and then another's. -/
example :
    let calls : List Call :=
      [.intern "b", .retain ⟨1⟩, .release ⟨1⟩, .release ⟨1⟩, .intern "a", .intern "a"]
    (reached calls).lookup? ⟨1⟩ = some "b" ∧ (reached calls).count? ⟨1⟩ = some 1 ∧
      (reached (calls.drop 1)).lookup? ⟨1⟩ = none ∧
      (life? ⟨1⟩ (moments calls)).map (·.text) = some "b" := by
  decide +kernel

end StringTable

end HeapSampler
