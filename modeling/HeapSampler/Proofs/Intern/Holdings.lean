import Mathlib
import HeapSampler.Proofs.Intern.Lifetimes

/-!
# Both tables in step

Callers take references to strings and to places from one pair of tables, add to those that they
hold and give them back.  Then no string leaves while a place has it as its name or its file, so
a place is found by its strings for as long as anyone holds it.
-/

namespace HeapSampler

namespace Tables

namespace Call

def needed? : Call → Option Reference
  | intern _ | internPlace _ => none
  | retain id | release id => some (.text id)
  | retainPlace id | releasePlace id => some (.place id)

def givesBack : Call → Bool
  | release _ | releasePlace _ => true
  | intern _ | internPlace _ | retain _ | retainPlace _ => false

end Call

def answer (tables : Tables) : Call → Except InternError Reference
  | .intern text => (tables.strings.intern text).map fun (_, id) => .text id
  | .retain id => (tables.strings.retain id).map fun _ => .text id
  | .release id => (tables.strings.release id).map fun _ => .text id
  | .internPlace place => (tables.internPlace place).2.map .place
  | .retainPlace id => (tables.functions.retain id).map fun _ => .place id
  | .releasePlace id => (tables.releasePlace id).2.map fun _ => .place id

end Tables

/-- Two tables and the references to them that callers hold, all callers together; a reference is
listed as often as it is held. -/
structure Pool where
  tables : Tables := {}
  texts : List StringId := []
  places : List LocationId := []

namespace Pool

def Holds (pool : Pool) : Reference → Prop
  | .text id => id ∈ pool.texts
  | .place id => id ∈ pool.places

def take (pool : Pool) : Reference → Pool
  | .text id => { pool with texts := id :: pool.texts }
  | .place id => { pool with places := id :: pool.places }

def giveBack (pool : Pool) : Reference → Pool
  | .text id => { pool with texts := pool.texts.erase id }
  | .place id => { pool with places := pool.places.erase id }

/-- The tables and what is held after a call; a call that fails takes and gives nothing. -/
def after (pool : Pool) (call : Tables.Call) : Pool :=
  let called := { pool with tables := pool.tables.perform call }
  match pool.tables.answer call with
  | .error _ => called
  | .ok reference => if call.givesBack then called.giveBack reference else called.take reference

/-- Callers add to references that one of them holds, and give back no others. -/
def Allows (pool : Pool) (call : Tables.Call) : Prop :=
  ∀ reference, call.needed? = some reference → pool.Holds reference

/-- What such calls lead to from empty tables.  Looking something up changes nothing and is not
among the calls. -/
inductive Reached : Pool → Prop where
  | empty : Reached {}
  | called {pool : Pool} {call : Tables.Call} (reached : Reached pool)
      (allowed : pool.Allows call) :
      Reached (pool.after call)

end Pool

/-! ## Single calls -/

namespace Tables

variable {tables later : Tables} {texts : List StringId} {places : List LocationId}

inductive Does (tables : Tables) (texts : List StringId) (places : List LocationId) (call : Call) :
    Prop where
  | fails (cause : InternError) (answer_eq : tables.answer call = .error cause)
      (spent : tables.Spent cause) (takes : call.givesBack = false)
      (balanced : (tables.perform call).Balanced texts places)
      (functions_eq : (tables.perform call).functions = tables.functions)
  | takesText (id : StringId) (answer_eq : tables.answer call = .ok (.text id))
      (takes : call.givesBack = false)
      (balanced : (tables.perform call).Balanced (id :: texts) places)
      (functions_eq : (tables.perform call).functions = tables.functions)
  | givesText (id : StringId) (answer_eq : tables.answer call = .ok (.text id))
      (gives : call.givesBack = true)
      (balanced : (tables.perform call).Balanced (texts.erase id) places)
      (functions_eq : (tables.perform call).functions = tables.functions)
  | takesPlace (id : LocationId) (answer_eq : tables.answer call = .ok (.place id))
      (takes : call.givesBack = false)
      (balanced : (tables.perform call).Balanced texts (id :: places))
      (extends_ : tables.Extends (tables.perform call))
  | givesPlace (id : LocationId) (call_eq : call = .releasePlace id)
      (answer_eq : tables.answer call = .ok (.place id))
      (balanced : (tables.perform call).Balanced texts (places.erase id))

theorem Balanced.retain_text (balanced : tables.Balanced texts places) {strings : StringTable}
    {id : StringId} (retained : tables.strings.retain id = .ok strings) :
    Balanced { tables with strings } (id :: texts) places := by
  obtain ⟨rfl, rfl⟩ | ⟨named, went⟩ := StringTable.retain_cases retained
  · refine ⟨balanced.strings, balanced.functions, fun other other_named => ?_,
      balanced.references_place⟩
    rw [List.cons_append, List.count_cons_of_ne other_named.symm]
    exact balanced.references_text other other_named
  · obtain ⟨old, present, -⟩ := InternSet.get?_of_retain went
    have held : tables.strings.set.key? id.value = some old.key := by
      rw [InternSet.key?, present, Option.map_some]
    obtain ⟨gains, -⟩ := balanced.strings.gains_of_retain held went
    refine ⟨gains.sound, balanced.functions, fun other other_named => ?_,
      balanced.references_place⟩
    rw [gains.references_eq, balanced.references_text other other_named, List.cons_append,
      List.count_cons]
    by_cases same : other = id
    · simp [same]
    · have apart : other.value ≠ id.value := fun equal => same (congrArg StringId.mk equal)
      simp [apart, Ne.symm same]

/-- A place that is there is counted once more, and nothing else changes. -/
structure CountsOnceMore (tables later : Tables) (id : LocationId) : Prop where
  strings_eq : later.strings = tables.strings
  free_eq : later.functions.set.slab.free = tables.functions.set.slab.free
  index_eq : later.functions.set.index = tables.functions.set.index
  lookup?_eq : ∀ other, later.functions.lookup? other = tables.functions.lookup? other
  count?_eq : ∀ other, later.functions.count? other =
    if other = id then (tables.functions.count? id).map (· + 1) else tables.functions.count? other

theorem countsOnceMore_of_retain {functions : FunctionTable} {id : LocationId}
    (retained : tables.functions.retain id = .ok functions) :
    tables.CountsOnceMore { tables with functions } id := by
  obtain ⟨set, went, rfl⟩ := exists_ok_of_map retained
  obtain ⟨old, present, entries⟩ := InternSet.get?_of_retain went
  have unmoved : set.slab.free = tables.functions.set.slab.free ∧
      set.index = tables.functions.set.index := by
    simp only [InternSet.retain, present] at went
    split at went
    · cases went
      exact ⟨rfl, rfl⟩
    · cases went
  refine ⟨rfl, unmoved.1, unmoved.2, fun other => ?_, fun other => ?_⟩
  · rw [FunctionTable.lookup?, FunctionTable.lookup?, entries]
    split
    · rename_i same
      rw [same, present, Option.map_some, Option.map_some]
    · rfl
  · rw [FunctionTable.count?, FunctionTable.count?, FunctionTable.count?, entries]
    by_cases same : other = id
    · rw [if_pos (congrArg _ same), if_pos same, present, Option.map_some, Option.map_some,
        Option.map_some]
    · have apart : other.value ≠ id.value := fun value => same (congrArg LocationId.mk value)
      rw [if_neg apart, if_neg same]

section ReleasePlace

variable {id : LocationId} {old : Interned Place}

/-- Before its last reference only the count of a place goes down. -/
theorem releasePlace_of_shared (present : tables.functions.set.get? id.value = some old)
    (several : 1 < old.count) :
    tables.releasePlace id = ({ tables with
      functions := ⟨{ tables.functions.set with
        slab := tables.functions.set.slab.put (id.value - 1)
          { old with count := old.count - 1 } }⟩ }, .ok ()) := by
  simp [releasePlace, InternSet.release, present, several]

/-- With the last reference a place is gone, and its strings are given back. -/
theorem functions_of_last (present : tables.functions.set.get? id.value = some old)
    (single : ¬1 < old.count) : (tables.releasePlace id).1.functions =
      ⟨{ slab := tables.functions.set.slab.erase (id.value - 1)
         index := tables.functions.set.index.erase old.key }⟩ := by
  simp [releasePlace, InternSet.release, present, single]

theorem lookup?_of_releasePlace_ne {other : LocationId} (apart : other ≠ id) :
    (tables.releasePlace id).1.functions.lookup? other = tables.functions.lookup? other := by
  have apart' : other.value ≠ id.value := fun value => apart (congrArg LocationId.mk value)
  rw [FunctionTable.lookup?, FunctionTable.lookup?]
  cases present : tables.functions.set.get? id.value with
  | none => simp [releasePlace, InternSet.release, present]
  | some old =>
      by_cases several : 1 < old.count
      · rw [releasePlace_of_shared present several, InternSet.get?_replace present, if_neg apart']
      · rw [functions_of_last present several, InternSet.get?_vacate present, if_neg apart']

end ReleasePlace

theorem Balanced.does_intern (balanced : tables.Balanced texts places) (text : String) :
    tables.Does texts places (.intern text) := by
  cases interned : tables.strings.intern text with
  | error cause =>
      have perform_eq : tables.perform (.intern text) = tables := by simp [perform, interned]
      refine .fails cause (by simp [answer, interned, Except.map])
        (.inl (balanced.spent_of_text interned)) rfl ?_ ?_ <;> rw [perform_eq]
      exact balanced
  | ok reached =>
      obtain ⟨strings, id⟩ := reached
      have perform_eq : tables.perform (.intern text) = { tables with strings } := by
        simp [perform, interned]
      refine .takesText id (by simp [answer, interned, Except.map]) rfl ?_ ?_ <;> rw [perform_eq]
      exact (balanced.intern_text interned).1

theorem Balanced.does_retain (balanced : tables.Balanced texts places) {id : StringId}
    (held : id ∈ texts) : tables.Does texts places (.retain id) := by
  cases retained : tables.strings.retain id with
  | error cause =>
      have perform_eq : tables.perform (.retain id) = tables := by simp [perform, retained]
      have spent : tables.Spent cause := by
        obtain spent | ⟨gone, -⟩ := StringTable.fails_of_retain retained
        · exact .inl spent
        · obtain ⟨text, found⟩ := balanced.exists_text (List.mem_append_left _ held)
          cases gone.symm.trans found
      refine .fails cause (by simp [answer, retained, Except.map]) spent rfl ?_ ?_ <;>
        rw [perform_eq]
      exact balanced
  | ok strings =>
      have perform_eq : tables.perform (.retain id) = { tables with strings } := by
        simp [perform, retained]
      refine .takesText id (by simp [answer, retained, Except.map]) rfl ?_ ?_ <;> rw [perform_eq]
      exact balanced.retain_text retained

theorem Balanced.does_release (balanced : tables.Balanced texts places) {id : StringId}
    (held : id ∈ texts) : tables.Does texts places (.release id) := by
  obtain ⟨strings, released, balanced', -⟩ :=
    (balanced.congr (List.perm_cons_erase held) (.refl _)).release_text
  have perform_eq : tables.perform (.release id) = { tables with strings } := by
    simp [perform, released]
  refine .givesText id (by simp [answer, released, Except.map]) rfl ?_ ?_ <;> rw [perform_eq]
  exact balanced'

theorem Balanced.does_internPlace (balanced : tables.Balanced texts places) (place : NamedPlace) :
    tables.Does texts places (.internPlace place) := by
  cases interned : tables.internPlace place with
  | mk later result =>
      have perform_eq : tables.perform (.internPlace place) = later := by simp [perform, interned]
      cases result with
      | error cause =>
          obtain ⟨spent, balanced', functions_eq⟩ := balanced.fail_place interned
          rw [← perform_eq] at balanced' functions_eq
          exact .fails cause (by simp [answer, interned, Except.map]) spent rfl balanced'
            functions_eq
      | ok id =>
          obtain ⟨balanced', extends_, -⟩ := balanced.intern_place interned
          rw [← perform_eq] at balanced' extends_
          exact .takesPlace id (by simp [answer, interned, Except.map]) rfl balanced' extends_

theorem Balanced.does_retainPlace (balanced : tables.Balanced texts places) {id : LocationId}
    (held : id ∈ places) : tables.Does texts places (.retainPlace id) := by
  obtain ⟨place, found⟩ := balanced.exists_place held
  cases retained : tables.functions.retain id with
  | error cause =>
      have perform_eq : tables.perform (.retainPlace id) = tables := by simp [perform, retained]
      have spent : tables.Spent cause :=
        .inr (.inl (InternSet.spent_of_retain found (error_of_map retained)))
      refine .fails cause (by simp [answer, retained, Except.map]) spent rfl ?_ ?_ <;>
        rw [perform_eq]
      exact balanced
  | ok functions =>
      have perform_eq : tables.perform (.retainPlace id) = { tables with functions } := by
        simp [perform, retained]
      obtain ⟨set, went, rfl⟩ := exists_ok_of_map retained
      obtain ⟨gains, same⟩ := balanced.functions.gains_of_retain found went
      refine .takesPlace id (by simp [answer, retained, Except.map]) rfl ?_ ?_ <;> rw [perform_eq]
      · exact balanced.gain_place gains same
      · exact extends_of_gains gains

theorem Balanced.does_releasePlace (balanced : tables.Balanced texts places) {id : LocationId}
    (held : id ∈ places) : tables.Does texts places (.releasePlace id) := by
  obtain ⟨later, released, balanced', -⟩ :=
    (balanced.congr (.refl _) (List.perm_cons_erase held)).release_place
  have perform_eq : tables.perform (.releasePlace id) = later := by simp [perform, released]
  rw [← perform_eq] at balanced'
  exact .givesPlace id rfl (by simp [answer, released, Except.map]) balanced'

end Tables

namespace Pool

variable {pool : Pool} {call : Tables.Call}

/-- The callers' references and those of the places to their strings are all that is counted. -/
def Balanced (pool : Pool) : Prop := pool.tables.Balanced pool.texts pool.places

theorem Balanced.does (balanced : pool.Balanced) (allowed : pool.Allows call) :
    pool.tables.Does pool.texts pool.places call := by
  cases call with
  | intern text => exact Tables.Balanced.does_intern balanced text
  | retain id => exact Tables.Balanced.does_retain balanced (allowed (.text id) rfl)
  | release id => exact Tables.Balanced.does_release balanced (allowed (.text id) rfl)
  | internPlace place => exact Tables.Balanced.does_internPlace balanced place
  | retainPlace id => exact Tables.Balanced.does_retainPlace balanced (allowed (.place id) rfl)
  | releasePlace id => exact Tables.Balanced.does_releasePlace balanced (allowed (.place id) rfl)

section After

variable {reference : Reference} {cause : InternError}

theorem after_of_error (failed : pool.tables.answer call = .error cause) :
    pool.after call = { pool with tables := pool.tables.perform call } := by
  rw [after, failed]

theorem after_of_taken (went : pool.tables.answer call = .ok reference)
    (takes : call.givesBack = false) :
    pool.after call = Pool.take { pool with tables := pool.tables.perform call } reference := by
  rw [after, went]
  simp [takes]

theorem after_of_given (went : pool.tables.answer call = .ok reference)
    (gives : call.givesBack = true) :
    pool.after call = Pool.giveBack { pool with tables := pool.tables.perform call } reference := by
  rw [after, went]
  simp [gives]

theorem tables_after (pool : Pool) (call : Tables.Call) :
    (pool.after call).tables = pool.tables.perform call := by
  unfold after
  split
  · rfl
  · rename_i reference _
    cases reference <;> split <;> rfl

end After

theorem Balanced.after (balanced : pool.Balanced) (allowed : pool.Allows call) :
    (pool.after call).Balanced := by
  cases balanced.does allowed with
  | fails cause answer_eq spent takes balanced' functions_eq =>
      rw [after_of_error answer_eq]
      exact balanced'
  | takesText id answer_eq takes balanced' functions_eq =>
      rw [after_of_taken answer_eq takes]
      exact balanced'
  | givesText id answer_eq gives balanced' functions_eq =>
      rw [after_of_given answer_eq gives]
      exact balanced'
  | takesPlace id answer_eq takes balanced' extends_ =>
      rw [after_of_taken answer_eq takes]
      exact balanced'
  | givesPlace id call_eq answer_eq balanced' =>
      have gives : call.givesBack = true := by
        rw [call_eq]
        rfl
      rw [after_of_given answer_eq gives]
      exact balanced'

theorem Reached.balanced (reached : pool.Reached) : pool.Balanced := by
  induction reached with
  | empty => exact Tables.balanced_empty
  | called _ allowed ih => exact ih.after allowed

theorem Reached.reachable (reached : pool.Reached) : Tables.Reachable pool.tables := by
  induction reached with
  | empty => exact .empty
  | called _ _ ih =>
      rw [tables_after]
      exact ih.called _

/-! ## What is counted and what is found -/

/-- The two tables agree with each other and with what is held. -/
structure InStep (pool : Pool) : Prop where
  /-- In both tables the index, the cells, the free list and the counts agree. -/
  agree : pool.tables.strings.set.Sound ∧ pool.tables.functions.set.Sound
  /-- A string is counted once for each reference that is held, each place that has it as its name
  and each that has it as its file, and it is there while this is not zero. -/
  texts : ∀ id, id ≠ .empty → pool.tables.strings.count? id =
    expectedCount (pool.texts.count id + pool.tables.functions.nameUses id +
      pool.tables.functions.fileUses id)
  places : ∀ id, pool.tables.functions.count? id = expectedCount (pool.places.count id)
  resolves : ∀ {id place}, pool.tables.functions.lookup? id = some place →
    ∃ named, pool.tables.functions.resolve? pool.tables.strings id = some named
  found : ∀ {named id}, pool.tables.functions.find? pool.tables.strings named = some id ↔
    pool.tables.functions.resolve? pool.tables.strings id = some named
  /-- The empty string is not counted, so it does not matter who holds it. -/
  vacant : (∀ id ∈ pool.texts, id = .empty) → pool.places = [] →
    pool.tables.strings.isEmpty = true ∧ pool.tables.functions.isEmpty = true

/-- What a call does that callers are allowed to make. -/
structure Heeds (pool : Pool) (call : Tables.Call) : Prop where
  /-- Giving back never fails, and taking fails only when the counts or the ids are at their end. -/
  fails : ∀ {cause}, pool.tables.answer call = .error cause →
    pool.tables.Spent cause ∧ call.givesBack = false
  /-- A place that is there is counted once more, unless it has all the references it can have. -/
  known : ∀ {named id}, call = .internPlace named →
    pool.tables.functions.find? pool.tables.strings named = some id →
    pool.tables.answer call = .ok (.place id) ∧
        pool.tables.CountsOnceMore (pool.after call).tables id ∨
      pool.tables.answer call = .error .refcountOverflow ∧
        (pool.after call).tables = pool.tables ∧
        ∃ count, pool.tables.functions.count? id = some count ∧ InternSet.maxWord ≤ count
  /-- A place that nobody gives back stays. -/
  stays : ∀ {id place}, pool.tables.functions.lookup? id = some place → call ≠ .releasePlace id →
    (pool.after call).tables.functions.lookup? id = some place
  /-- Before its last reference is given back, a place stays and keeps its strings. -/
  shared : ∀ {id place}, pool.tables.functions.lookup? id = some place → call = .releasePlace id →
    pool.tables.functions.count? id ≠ some 1 →
    (pool.after call).tables.functions.lookup? id = some place ∧
      (pool.after call).tables.strings = pool.tables.strings
  /-- With its last reference a place leaves and gives back one reference to its name and one to
  its file. -/
  leaves : ∀ {id place}, pool.tables.functions.lookup? id = some place → call = .releasePlace id →
    pool.tables.functions.count? id = some 1 →
    (pool.after call).tables.functions.lookup? id = none ∧
      ∀ text : StringId, text ≠ .empty → pool.tables.strings.set.references text.value =
        (pool.after call).tables.strings.set.references text.value +
          [place.name, place.file].count text

theorem Balanced.find?_iff (balanced : pool.Balanced) (sound : pool.tables.Sound)
    {named : NamedPlace} {id : LocationId} :
    pool.tables.functions.find? pool.tables.strings named = some id ↔
      pool.tables.functions.resolve? pool.tables.strings id = some named := by
  constructor
  · exact Tables.Balanced.resolve?_of_find? balanced
  · intro resolved
    obtain ⟨place, found, name_found, file_found, line_eq⟩ :=
      FunctionTable.resolve?_eq_some_iff.mp resolved
    have name_back := (sound.strings.find?_iff _ place.name).mpr name_found
    have file_back := (sound.strings.find?_iff _ place.file).mpr file_found
    have key_back := sound.functions.find?_eq_some_iff.mpr found
    simp [FunctionTable.find?, name_back, file_back, key_back, ← line_eq]

theorem Balanced.exists_resolved (balanced : pool.Balanced) {id : LocationId} {place : Place}
    (found : pool.tables.functions.lookup? id = some place) :
    ∃ named, pool.tables.functions.resolve? pool.tables.strings id = some named := by
  refine Tables.Balanced.exists_resolved balanced (List.count_pos_iff.mp ?_)
  rw [← balanced.references_place, ← balanced.functions.key?_isSome_iff]
  exact Option.isSome_of_eq_some found

theorem Balanced.vacant (balanced : pool.Balanced) (blank : ∀ id ∈ pool.texts, id = .empty)
    (no_places : pool.places = []) :
    pool.tables.strings.isEmpty = true ∧ pool.tables.functions.isEmpty = true := by
  have places_gone : pool.tables.functions.set.keys = [] := by
    refine balanced.functions.keys_eq_nil fun id => ?_
    rw [balanced.references_place ⟨id⟩, no_places, List.count_nil]
  have texts_gone : pool.tables.strings.set.keys = [] := by
    refine balanced.strings.keys_eq_nil fun id => ?_
    cases id with
    | zero => rfl
    | succ index =>
        have named : (⟨index + 1⟩ : StringId) ≠ .empty := by simp [StringId.empty]
        rw [balanced.references_text ⟨index + 1⟩ named, FunctionTable.texts, places_gone,
          List.flatMap_nil, List.append_nil, List.count_eq_zero]
        exact fun listed => named (blank _ listed)
  constructor
  · simp [StringTable.isEmpty, StringTable.size, balanced.strings.size_eq_length, texts_gone]
  · simp [FunctionTable.isEmpty, FunctionTable.size, balanced.functions.size_eq_length, places_gone]

theorem Balanced.inStep (balanced : pool.Balanced) (sound : pool.tables.Sound) : pool.InStep where
  agree := ⟨balanced.strings, balanced.functions⟩
  texts id named := by
    refine (balanced.strings.count?_eq id.value).trans ?_
    rw [balanced.references_text id named, List.count_append, FunctionTable.count_texts,
      ← Nat.add_assoc]
  places id := by
    refine (balanced.functions.count?_eq id.value).trans ?_
    rw [balanced.references_place]
  resolves := balanced.exists_resolved
  found := balanced.find?_iff sound
  vacant := balanced.vacant

/-! ## What a call does -/

section Heeds

variable {id : LocationId} {place : Place}

theorem known_of_find? (balanced : pool.Balanced) {named : NamedPlace}
    (found : pool.tables.functions.find? pool.tables.strings named = some id) :
    pool.tables.answer (.internPlace named) = .ok (.place id) ∧
        pool.tables.CountsOnceMore (pool.after (.internPlace named)).tables id ∨
      pool.tables.answer (.internPlace named) = .error .refcountOverflow ∧
        (pool.after (.internPlace named)).tables = pool.tables ∧
        ∃ count, pool.tables.functions.count? id = some count ∧ InternSet.maxWord ≤ count := by
  rw [tables_after]
  cases retained : pool.tables.functions.retain id with
  | ok functions =>
      have interned : pool.tables.internPlace named =
          ({ pool.tables with functions }, .ok id) := by
        simp [Tables.internPlace, found, retained]
      refine .inl ⟨by simp [Tables.answer, interned, Except.map], ?_⟩
      rw [Tables.perform, interned]
      exact Tables.countsOnceMore_of_retain retained
  | error cause =>
      have interned : pool.tables.internPlace named = (pool.tables, .error cause) := by
        simp [Tables.internPlace, found, retained]
      obtain ⟨key, key_found, -⟩ :=
        Option.bind_eq_some_iff.mp (Tables.Balanced.resolve?_of_find? balanced found)
      obtain ⟨old, present, -⟩ := Option.map_eq_some_iff.mp key_found
      have failed := error_of_map retained
      simp only [InternSet.retain, present] at failed
      split at failed
      · cases failed
      · rename_i full
        cases failed
        refine .inr ⟨by simp [Tables.answer, interned, Except.map],
          by rw [Tables.perform, interned], old.count, ?_, Nat.le_of_not_lt full⟩
        rw [FunctionTable.count?, present, Option.map_some]

theorem Balanced.stays (balanced : pool.Balanced) (allowed : pool.Allows call)
    (found : pool.tables.functions.lookup? id = some place) (kept : call ≠ .releasePlace id) :
    (pool.after call).tables.functions.lookup? id = some place := by
  rw [tables_after]
  cases balanced.does allowed with
  | fails cause answer_eq spent takes balanced' functions_eq => rwa [functions_eq]
  | takesText other answer_eq takes balanced' functions_eq => rwa [functions_eq]
  | givesText other answer_eq gives balanced' functions_eq => rwa [functions_eq]
  | takesPlace other answer_eq takes balanced' extends_ => exact extends_.place?_keeps found
  | givesPlace other call_eq answer_eq balanced' =>
      subst call_eq
      rw [Tables.perform, Tables.lookup?_of_releasePlace_ne fun same => kept (by rw [same])]
      exact found

theorem Balanced.shared (balanced : pool.Balanced)
    (found : pool.tables.functions.lookup? id = some place)
    (several : pool.tables.functions.count? id ≠ some 1) :
    (pool.after (.releasePlace id)).tables.functions.lookup? id = some place ∧
      (pool.after (.releasePlace id)).tables.strings = pool.tables.strings := by
  obtain ⟨old, present, rfl⟩ := Option.map_eq_some_iff.mp found
  have positive := balanced.functions.count_pos present
  have not_last : old.count ≠ 1 := by
    intro single
    rw [FunctionTable.count?, present, Option.map_some, single] at several
    exact several rfl
  rw [tables_after, Tables.perform,
    Tables.releasePlace_of_shared present (Nat.lt_of_le_of_ne positive (Ne.symm not_last))]
  refine ⟨?_, rfl⟩
  rw [FunctionTable.lookup?, InternSet.get?_replace present, if_pos rfl, Option.map_some]

/-- Callers hold the same strings after giving back a place. -/
theorem texts_after_releasePlace (pool : Pool) (id : LocationId) :
    (pool.after (.releasePlace id)).texts = pool.texts := by
  cases result : (pool.tables.releasePlace id).2 with
  | error cause => simp [after, Tables.answer, result, Except.map]
  | ok _ => simp [after, Tables.answer, result, Except.map, Tables.Call.givesBack, giveBack]

theorem Balanced.leaves (balanced : pool.Balanced) (allowed : pool.Allows (.releasePlace id))
    (found : pool.tables.functions.lookup? id = some place)
    (last : pool.tables.functions.count? id = some 1) :
    (pool.after (.releasePlace id)).tables.functions.lookup? id = none ∧
      ∀ text : StringId, text ≠ .empty → pool.tables.strings.set.references text.value =
        (pool.after (.releasePlace id)).tables.strings.set.references text.value +
          [place.name, place.file].count text := by
  obtain ⟨old, present, rfl⟩ := Option.map_eq_some_iff.mp found
  have single : old.count = 1 := by
    rw [FunctionTable.count?, present, Option.map_some] at last
    exact Option.some.inj last
  have functions_eq : (pool.after (.releasePlace id)).tables.functions =
      ⟨{ slab := pool.tables.functions.set.slab.erase (id.value - 1)
         index := pool.tables.functions.set.index.erase old.key }⟩ := by
    rw [tables_after]
    exact Tables.functions_of_last present (by omega)
  refine ⟨?_, fun text named => ?_⟩
  · rw [functions_eq, FunctionTable.lookup?, InternSet.get?_vacate present, if_pos rfl,
      Option.map_none]
  · have counted := (Tables.texts_perm_cons _ (InternSet.keys_vacate present
      (pool.tables.functions.set.index.erase old.key))).count_eq text
    rw [balanced.references_text text named, (balanced.after allowed).references_text text named,
      texts_after_releasePlace, functions_eq, List.count_append, List.count_append, counted]
    simp only [List.count_cons, List.count_nil]
    omega

theorem Balanced.fails (balanced : pool.Balanced) (allowed : pool.Allows call) {cause : InternError}
    (failed : pool.tables.answer call = .error cause) :
    pool.tables.Spent cause ∧ call.givesBack = false := by
  cases balanced.does allowed with
  | fails own answer_eq spent takes balanced' functions_eq =>
      cases failed.symm.trans answer_eq
      exact ⟨spent, takes⟩
  | takesText own answer_eq takes balanced' functions_eq => cases failed.symm.trans answer_eq
  | givesText own answer_eq gives balanced' functions_eq => cases failed.symm.trans answer_eq
  | takesPlace own answer_eq takes balanced' extends_ => cases failed.symm.trans answer_eq
  | givesPlace own call_eq answer_eq balanced' => cases failed.symm.trans answer_eq

theorem Balanced.heeds (balanced : pool.Balanced) (allowed : pool.Allows call) :
    pool.Heeds call where
  fails := balanced.fails allowed
  known call_eq found := by
    subst call_eq
    exact known_of_find? balanced found
  stays found kept := balanced.stays allowed found kept
  shared found call_eq several := by
    subst call_eq
    exact balanced.shared found several
  leaves found call_eq last := by
    subst call_eq
    exact balanced.leaves allowed found last

end Heeds

/-- Callers who give back only what they hold keep the two tables in step, whatever they call and
in whatever order. -/
theorem in_step_of_reached (reached : pool.Reached) :
    pool.InStep ∧ ∀ call, pool.Allows call → pool.Heeds call :=
  ⟨reached.balanced.inStep reached.reachable.sound, fun _ allowed => reached.balanced.heeds allowed⟩

/-- A place whose name is its file, held twice, and the same string on its own. -/
def echoPool : Pool :=
  ((({} : Pool).after (.internPlace ⟨"x", "x", 1⟩)).after (.internPlace ⟨"x", "x", 1⟩)).after
    (.intern "x")

theorem in_step_of_echoPool :
    echoPool.InStep ∧ echoPool.Heeds (.internPlace ⟨"x", "x", 1⟩) ∧
      (echoPool.after (.releasePlace ⟨1⟩)).Heeds (.releasePlace ⟨1⟩) ∧
      echoPool.tables.strings.count? ⟨1⟩ = some 3 ∧
      (echoPool.after (.releasePlace ⟨1⟩)).tables.functions.count? ⟨1⟩ = some 1 := by
  have interning (pool : Pool) (place : NamedPlace) : pool.Allows (.internPlace place) :=
    fun _ needed => nomatch needed
  have reached : echoPool.Reached :=
    (((Reached.empty.called (interning _ _)).called (interning _ _)).called fun _ needed =>
      nomatch needed)
  have places_eq : echoPool.places = [⟨1⟩, ⟨1⟩] := by decide +kernel
  have releasing : echoPool.Allows (.releasePlace ⟨1⟩) := by
    rintro _ ⟨⟩
    rw [Holds, places_eq]
    exact List.mem_cons_self
  have places_eq' : (echoPool.after (.releasePlace ⟨1⟩)).places = [⟨1⟩] := by decide +kernel
  have releasing' : (echoPool.after (.releasePlace ⟨1⟩)).Allows (.releasePlace ⟨1⟩) := by
    rintro _ ⟨⟩
    rw [Holds, places_eq']
    exact List.mem_cons_self
  obtain ⟨in_step, heeds⟩ := in_step_of_reached reached
  exact ⟨in_step, heeds _ (interning _ _),
    (in_step_of_reached (reached.called releasing)).2 _ releasing', by decide +kernel,
    by decide +kernel⟩

end Pool

end HeapSampler
