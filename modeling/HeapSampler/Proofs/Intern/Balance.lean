import Mathlib
import HeapSampler.Intern.Tables
import HeapSampler.Store.Inventory
import HeapSampler.Proofs.Intern.References

/-!
# Balanced tables

The tables are balanced against two lists, of string ids and of place ids, if they count exactly the
references in these lists and those that the places hold to their own strings.  Interning adds the
new id to a list, releasing takes it off one, and neither changes what any other id that is referred
to stands for.
-/

namespace HeapSampler

inductive Reference where
  | text (id : StringId)
  | place (id : LocationId)
  deriving DecidableEq, Repr

/-- The count that a table should hold for something used so often: none if it is not used. -/
def expectedCount (uses : Nat) : Option Nat :=
  if uses = 0 then none else some uses

theorem InternSet.Sound.count?_eq {κ : Type} {set : InternSet κ} (sound : set.Sound) (id : Nat) :
    (set.get? id).map (·.count) = expectedCount (set.references id) := by
  unfold expectedCount references
  cases found : set.get? id with
  | none => rfl
  | some interned =>
      have positive := sound.count_pos found
      rw [Option.map_some, Option.getD_some, if_neg (by omega)]

def FunctionTable.texts (table : FunctionTable) : List StringId :=
  table.set.keys.flatMap fun place => [place.name, place.file]

def FunctionTable.nameUses (table : FunctionTable) (id : StringId) : Nat :=
  (table.set.entries.map fun entry => entry.2.key.name).count id

def FunctionTable.fileUses (table : FunctionTable) (id : StringId) : Nat :=
  (table.set.entries.map fun entry => entry.2.key.file).count id

/-- Counting over pairs counts over the firsts and over the seconds. -/
theorem count_flatMap_pair {α : Type} (first second : α → StringId) (items : List α)
    (id : StringId) :
    (items.flatMap fun item => [first item, second item]).count id =
      (items.map first).count id + (items.map second).count id := by
  induction items with
  | nil => rfl
  | cons item rest ih =>
      rw [List.flatMap_cons, List.count_append, ih, List.map_cons, List.map_cons]
      simp only [List.count_cons, List.count_nil]
      omega

theorem FunctionTable.count_texts (table : FunctionTable) (id : StringId) :
    table.texts.count id = table.nameUses id + table.fileUses id := by
  rw [texts, count_flatMap_pair, InternSet.keys, List.map_map, List.map_map]
  rfl

theorem StringTable.lookup?_eq_key? (table : StringTable) {id : StringId} (named : id ≠ .empty) :
    table.lookup? id = table.set.key? id.value := by
  simp [lookup?, named, InternSet.key?]

theorem FunctionTable.lookup?_eq_key? (table : FunctionTable) (id : LocationId) :
    table.lookup? id = table.set.key? id.value := rfl

theorem FunctionTable.resolve?_eq_some_iff {table : FunctionTable} {strings : StringTable}
    {id : LocationId} {named : NamedPlace} :
    table.resolve? strings id = some named ↔ ∃ place, table.lookup? id = some place ∧
      strings.lookup? place.name = some named.functionName ∧
      strings.lookup? place.file = some named.fileName ∧ place.line = named.line := by
  simp only [resolve?, Option.bind_eq_bind, Option.bind_eq_some_iff, Option.pure_def,
    Option.some.injEq]
  constructor
  · rintro ⟨place, found, name, name_found, file, file_found, rfl⟩
    exact ⟨place, found, name_found, file_found, rfl⟩
  · rintro ⟨place, found, name_found, file_found, line_eq⟩
    exact ⟨place, found, _, name_found, _, file_found, by rw [line_eq]⟩

/-- The strings of an interned place are among those that the places refer to. -/
theorem FunctionTable.mem_texts {table : FunctionTable} {id : LocationId} {place : Place}
    (found : table.lookup? id = some place) :
    place.name ∈ table.texts ∧ place.file ∈ table.texts := by
  obtain ⟨interned, present, rfl⟩ := Option.map_eq_some_iff.mp found
  have member : interned.key ∈ table.set.keys := by
    cases number : id.value with
    | zero => simp [number] at present
    | succ index =>
        rw [number] at present
        rw [InternSet.keys_eq]
        exact List.mem_map.mpr ⟨(index, interned), Slab.mem_entries.mpr present, rfl⟩
  constructor <;> exact List.mem_flatMap.mpr ⟨_, member, by simp⟩

namespace Tables

variable {tables after : Tables} {texts : List StringId} {places : List LocationId}

/-- The references counted are those in the two lists and those of the places to their strings. -/
structure Balanced (tables : Tables) (texts : List StringId) (places : List LocationId) : Prop where
  strings : tables.strings.set.Sound
  functions : tables.functions.set.Sound
  references_text : ∀ id : StringId, id ≠ .empty →
    tables.strings.set.references id.value = (texts ++ tables.functions.texts).count id
  references_place : ∀ id : LocationId,
    tables.functions.set.references id.value = places.count id

structure Extends (before after : Tables) : Prop where
  lookup?_keeps : ∀ {id : StringId} {text : String},
    before.strings.lookup? id = some text → after.strings.lookup? id = some text
  place?_keeps : ∀ {id : LocationId} {place : Place},
    before.functions.lookup? id = some place → after.functions.lookup? id = some place

/-- The ids in two lists stand for what they stood for. -/
structure Keeps (before after : Tables) (texts : List StringId) (places : List LocationId) :
    Prop where
  lookup?_eq : ∀ id ∈ texts, after.strings.lookup? id = before.strings.lookup? id
  resolve?_eq : ∀ id ∈ places,
    after.functions.resolve? after.strings id = before.functions.resolve? before.strings id

theorem balanced_empty : ({} : Tables).Balanced [] [] where
  strings := InternSet.sound_empty
  functions := InternSet.sound_empty
  references_text id _ := InternSet.references_empty id.value
  references_place id := InternSet.references_empty id.value

namespace Balanced

/-- Only how often each id is listed matters, not in which order. -/
theorem congr (balanced : tables.Balanced texts places) {texts' : List StringId}
    {places' : List LocationId} (same_texts : texts.Perm texts')
    (same_places : places.Perm places') :
    tables.Balanced texts' places' where
  strings := balanced.strings
  functions := balanced.functions
  references_text id named := by
    rw [balanced.references_text id named, List.count_append, List.count_append,
      same_texts.count_eq]
  references_place id := by
    rw [balanced.references_place id, same_places.count_eq]

/-- A place that is referred to is interned. -/
theorem exists_place (balanced : tables.Balanced texts places) {id : LocationId}
    (listed : id ∈ places) : ∃ place, tables.functions.lookup? id = some place := by
  have referred : 0 < tables.functions.set.references id.value := by
    rw [balanced.references_place]
    exact List.count_pos_iff.mpr listed
  exact Option.isSome_iff_exists.mp (balanced.functions.key?_isSome_iff.mpr referred)

/-- A string that is referred to, by a list or by a place, is interned. -/
theorem exists_text (balanced : tables.Balanced texts places) {id : StringId}
    (listed : id ∈ texts ++ tables.functions.texts) :
    ∃ text, tables.strings.lookup? id = some text := by
  by_cases named : id = .empty
  · exact ⟨"", by simp [StringTable.lookup?, named]⟩
  · have referred : 0 < tables.strings.set.references id.value := by
      rw [balanced.references_text id named]
      exact List.count_pos_iff.mpr listed
    rw [tables.strings.lookup?_eq_key? named]
    exact Option.isSome_iff_exists.mp (balanced.strings.key?_isSome_iff.mpr referred)

/-- A place that is referred to has both of its strings. -/
theorem exists_resolved (balanced : tables.Balanced texts places) {id : LocationId}
    (listed : id ∈ places) :
    ∃ place, tables.functions.resolve? tables.strings id = some place := by
  obtain ⟨place, found⟩ := balanced.exists_place listed
  obtain ⟨name_mem, file_mem⟩ := FunctionTable.mem_texts found
  obtain ⟨name, name_found⟩ := balanced.exists_text (List.mem_append_right _ name_mem)
  obtain ⟨file, file_found⟩ := balanced.exists_text (List.mem_append_right _ file_mem)
  exact ⟨⟨name, file, place.line⟩,
    by simp [FunctionTable.resolve?, found, name_found, file_found]⟩

end Balanced

namespace Extends

theorem refl (tables : Tables) : tables.Extends tables := ⟨id, id⟩

theorem trans {first second third : Tables} (one : first.Extends second)
    (two : second.Extends third) : first.Extends third where
  lookup?_keeps found := two.lookup?_keeps (one.lookup?_keeps found)
  place?_keeps found := two.place?_keeps (one.place?_keeps found)

theorem resolve?_keeps {before : Tables} (extends_ : before.Extends after) {id : LocationId}
    {place : NamedPlace} (found : before.functions.resolve? before.strings id = some place) :
    after.functions.resolve? after.strings id = some place := by
  rw [FunctionTable.resolve?_eq_some_iff] at found ⊢
  obtain ⟨key, key_found, name_found, file_found, line_eq⟩ := found
  exact ⟨key, extends_.place?_keeps key_found, extends_.lookup?_keeps name_found,
    extends_.lookup?_keeps file_found, line_eq⟩

end Extends

/-! ## Strings -/

/-- The text that was interned is what the new id stands for. -/
theorem Balanced.intern_text (balanced : tables.Balanced texts places) {strings : StringTable}
    {text : String} {id : StringId} (interned : tables.strings.intern text = .ok (strings, id)) :
    Balanced { tables with strings } (id :: texts) places ∧
      tables.Extends { tables with strings } ∧ strings.lookup? id = some text := by
  unfold StringTable.intern at interned
  split at interned
  · rename_i blank
    cases interned
    refine ⟨⟨balanced.strings, balanced.functions, fun other named => ?_,
      balanced.references_place⟩, .refl _, by simp [StringTable.lookup?, blank]⟩
    rw [List.cons_append, List.count_cons_of_ne (Ne.symm named)]
    exact balanced.references_text other named
  · cases found : tables.strings.set.intern text with
    | error cause => simp [found, Except.map] at interned
    | ok result =>
        obtain ⟨set, number⟩ := result
        simp only [found, Except.map, Except.ok.injEq, Prod.mk.injEq] at interned
        obtain ⟨rfl, rfl⟩ := interned
        obtain ⟨gains, _⟩ := balanced.strings.gains_of_intern found
        have named : (⟨number⟩ : StringId) ≠ .empty := by
          intro same
          cases same
          simpa [InternSet.key?] using gains.key?_self
        refine ⟨⟨gains.sound, balanced.functions, fun other other_named => ?_,
          balanced.references_place⟩, ⟨fun {other found} kept => ?_, id⟩, ?_⟩
        · rw [gains.references_eq, balanced.references_text other other_named, List.cons_append,
            List.count_cons]
          by_cases same : other = ⟨number⟩
          · simp [same]
          · have apart : other.value ≠ number := fun equal => same (congrArg StringId.mk equal)
            simp [apart, Ne.symm same]
        · by_cases other_named : other = .empty
          · simpa [StringTable.lookup?, other_named] using kept
          · rw [StringTable.lookup?_eq_key? _ other_named] at kept ⊢
            exact gains.key?_keeps kept
        · rw [StringTable.lookup?_eq_key? _ named]
          exact gains.key?_self

/-- A reference that is listed can be given back. -/
theorem Balanced.release_text {id : StringId} (balanced : tables.Balanced (id :: texts) places) :
    ∃ strings, tables.strings.release id = .ok strings ∧
      Balanced { tables with strings } texts places ∧
      ∀ other ∈ texts ++ tables.functions.texts,
        strings.lookup? other = tables.strings.lookup? other := by
  by_cases named : id = .empty
  · refine ⟨tables.strings, by simp [StringTable.release, named],
      ⟨balanced.strings, balanced.functions, fun other other_named => ?_,
        balanced.references_place⟩, fun _ _ => rfl⟩
    have apart : id ≠ other := fun same => other_named (same ▸ named)
    rw [balanced.references_text other other_named, List.cons_append, List.count_cons_of_ne apart]
  · have referred : 0 < tables.strings.set.references id.value := by
      rw [balanced.references_text id named]
      exact List.count_pos_iff.mpr (by simp)
    obtain ⟨set, last, released, loses, _⟩ := balanced.strings.loses_of_release referred
    have listed (other : StringId) (other_named : other ≠ .empty) :
        set.references other.value = (texts ++ tables.functions.texts).count other := by
      have counted := balanced.references_text other other_named
      rw [loses.references_eq, List.cons_append, List.count_cons] at counted
      by_cases same : other = id
      · simpa [same] using counted
      · have apart : other.value ≠ id.value := fun equal => same (congrArg StringId.mk equal)
        simpa [apart, Ne.symm same] using counted
    refine ⟨⟨set⟩, by simp [StringTable.release, named, released, Except.map],
      ⟨loses.sound, balanced.functions, listed, balanced.references_place⟩,
      fun other member => ?_⟩
    by_cases other_named : other = .empty
    · simp [StringTable.lookup?, other_named]
    · rw [StringTable.lookup?_eq_key? _ other_named, StringTable.lookup?_eq_key? _ other_named]
      refine loses.key?_eq ?_
      rw [listed other other_named]
      exact List.count_pos_iff.mpr member

/-! ## Places -/

theorem lookup?_of_find? {strings : StringTable} (sound : strings.set.Sound) {text : String}
    {id : StringId} (found : strings.find? text = some id) : strings.lookup? id = some text := by
  unfold StringTable.find? at found
  split at found
  · rename_i blank
    cases found
    simp [StringTable.lookup?, blank]
  · obtain ⟨number, number_found, rfl⟩ := Option.map_eq_some_iff.mp found
    have held := sound.find?_eq_some_iff.mp number_found
    have named : (⟨number⟩ : StringId) ≠ .empty := by
      intro same
      cases same
      simp [InternSet.key?] at held
    rw [StringTable.lookup?_eq_key? _ named]
    exact held

theorem find?_of_lookup? {strings : StringTable} (sound : strings.set.Sound) {text : String}
    {id : StringId} (found : strings.lookup? id = some text) (blank : text = "" → id = .empty) :
    strings.find? text = some id := by
  unfold StringTable.find?
  split
  · rename_i same
    rw [blank same]
  · rename_i full
    have named : id ≠ .empty := by
      rintro rfl
      exact full (by simpa [StringTable.lookup?, eq_comm] using found)
    rw [StringTable.lookup?_eq_key? _ named, ← sound.find?_eq_some_iff] at found
    simp [found]

/-- A place that is found is the one that was looked for. -/
theorem Balanced.resolve?_of_find? (balanced : tables.Balanced texts places) {place : NamedPlace}
    {id : LocationId} (found : tables.functions.find? tables.strings place = some id) :
    tables.functions.resolve? tables.strings id = some place := by
  simp only [FunctionTable.find?, Option.bind_eq_bind, Option.bind_eq_some_iff,
    Option.map_eq_some_iff] at found
  obtain ⟨name, name_found, file, file_found, number, key_found, rfl⟩ := found
  have key := balanced.functions.find?_eq_some_iff.mp key_found
  simp [FunctionTable.resolve?, FunctionTable.lookup?_eq_key?, key,
    lookup?_of_find? balanced.strings name_found, lookup?_of_find? balanced.strings file_found]

theorem texts_perm {functions : FunctionTable} {set : InternSet Place}
    (same : set.keys.Perm functions.set.keys) : (FunctionTable.mk set).texts.Perm functions.texts :=
  same.flatMap_right _

theorem texts_perm_cons (functions : FunctionTable) {set : InternSet Place} {place : Place}
    (more : set.keys.Perm (place :: functions.set.keys)) :
    (FunctionTable.mk set).texts.Perm (place.name :: place.file :: functions.texts) := by
  have perm := more.flatMap_right fun place : Place => [place.name, place.file]
  simpa [FunctionTable.texts] using perm

theorem Balanced.gain_place (balanced : tables.Balanced texts places) {set : InternSet Place}
    {id : Nat} {place : Place} (gains : tables.functions.set.Gains set id place)
    (same : set.keys.Perm tables.functions.set.keys) :
    Balanced { tables with functions := ⟨set⟩ } texts (⟨id⟩ :: places) where
  strings := balanced.strings
  functions := gains.sound
  references_text other named := by
    rw [balanced.references_text other named, List.count_append, List.count_append,
      (texts_perm same).count_eq]
  references_place other := by
    rw [gains.references_eq, balanced.references_place, List.count_cons]
    by_cases equal : other = ⟨id⟩
    · simp [equal]
    · have apart : other.value ≠ id := fun value => equal (congrArg LocationId.mk value)
      simp [apart, Ne.symm equal]

/-- Adding a place that is not there: the references to its strings become its own. -/
theorem Balanced.add_place {strings : StringTable} {functions : FunctionTable}
    {set : InternSet Place} {id : Nat} {place : Place} (gains : functions.set.Gains set id place)
    (more : set.keys.Perm (place :: functions.set.keys))
    (balanced : Balanced { strings, functions } (place.file :: place.name :: texts) places) :
    Balanced { strings, functions := ⟨set⟩ } texts (⟨id⟩ :: places) where
  strings := balanced.strings
  functions := gains.sound
  references_text other named := by
    rw [balanced.references_text other named, List.count_append, List.count_append,
      (texts_perm_cons functions more).count_eq]
    simp only [List.count_cons]
    omega
  references_place other := by
    rw [gains.references_eq, balanced.references_place, List.count_cons]
    by_cases equal : other = ⟨id⟩
    · simp [equal]
    · have apart : other.value ≠ id := fun value => equal (congrArg LocationId.mk value)
      simp [apart, Ne.symm equal]

theorem extends_of_gains {set : InternSet Place} {id : Nat} {place : Place}
    (gains : tables.functions.set.Gains set id place) :
    tables.Extends { tables with functions := ⟨set⟩ } where
  lookup?_keeps found := found
  place?_keeps found := gains.key?_keeps found

/-- A place by ids that stand for its strings is not interned if the place cannot be found. -/
theorem Balanced.key_absent (balanced : tables.Balanced texts places) {place : NamedPlace}
    (absent : tables.functions.find? tables.strings place = none) {later : Tables}
    (more : tables.Extends later) {name file : StringId}
    (name_found : later.strings.lookup? name = some place.functionName)
    (file_found : later.strings.lookup? file = some place.fileName)
    (name_blank : place.functionName = "" → name = .empty)
    (file_blank : place.fileName = "" → file = .empty) :
    tables.functions.set.find? { name, file, line := place.line } = none := by
  cases found : tables.functions.set.find? { name, file, line := place.line } with
  | none => rfl
  | some id =>
      have key : tables.functions.lookup? ⟨id⟩ = some { name, file, line := place.line } :=
        balanced.functions.find?_eq_some_iff.mp found
      obtain ⟨name_mem, file_mem⟩ := FunctionTable.mem_texts key
      obtain ⟨_, name_old⟩ := balanced.exists_text (List.mem_append_right _ name_mem)
      obtain ⟨_, file_old⟩ := balanced.exists_text (List.mem_append_right _ file_mem)
      rw [more.lookup?_keeps name_old] at name_found
      rw [more.lookup?_keeps file_old] at file_found
      cases name_found
      cases file_found
      have name_back := find?_of_lookup? balanced.strings name_old name_blank
      have file_back := find?_of_lookup? balanced.strings file_old file_blank
      simp [FunctionTable.find?, name_back, file_back, found] at absent

theorem empty_of_intern {strings strings' : StringTable} {text : String} {id : StringId}
    (interned : strings.intern text = .ok (strings', id)) (blank : text = "") : id = .empty := by
  simp only [StringTable.intern, blank, if_true, Except.ok.injEq, Prod.mk.injEq] at interned
  exact interned.2.symm

theorem Balanced.intern_new_place (balanced : tables.Balanced texts places) {place : NamedPlace}
    {id : LocationId} (absent : tables.functions.find? tables.strings place = none)
    (added : tables.addPlace place = (after, .ok id)) :
    after.Balanced texts (id :: places) ∧ tables.Extends after ∧
      after.functions.resolve? after.strings id = some place := by
  unfold addPlace at added
  cases name_interned : tables.strings.intern place.functionName with
  | error cause => simp [name_interned] at added
  | ok named =>
      obtain ⟨strings, name⟩ := named
      obtain ⟨balanced_name, more_name, name_found⟩ := balanced.intern_text name_interned
      simp only [name_interned] at added
      cases file_interned : strings.intern place.fileName with
      | error cause =>
          simp only [file_interned] at added
          split at added <;> simp at added
      | ok filed =>
          obtain ⟨strings', file⟩ := filed
          obtain ⟨balanced_file, more_file, file_found⟩ := balanced_name.intern_text file_interned
          simp only [file_interned] at added
          have name_kept := more_file.lookup?_keeps name_found
          have fresh := balanced.key_absent absent (more_name.trans more_file) name_kept file_found
            (empty_of_intern name_interned) (empty_of_intern file_interned)
          cases key_interned : tables.functions.set.intern { name, file, line := place.line } with
          | error cause =>
              simp only [key_interned] at added
              split at added <;> simp at added
          | ok keyed =>
              obtain ⟨set, number⟩ := keyed
              simp only [key_interned, Prod.mk.injEq, Except.ok.injEq] at added
              obtain ⟨rfl, rfl⟩ := added
              obtain ⟨gains, ⟨found, _⟩ | ⟨_, more⟩⟩ :=
                balanced.functions.gains_of_intern key_interned
              · rw [fresh] at found
                cases found
              · refine ⟨.add_place gains more balanced_file,
                  (more_name.trans more_file).trans (extends_of_gains gains), ?_⟩
                simp [FunctionTable.resolve?, FunctionTable.lookup?_eq_key?, gains.key?_self,
                  name_kept, file_found]

/-- The place that was interned is what its id stands for. -/
theorem Balanced.intern_place (balanced : tables.Balanced texts places) {place : NamedPlace}
    {id : LocationId} (interned : tables.internPlace place = (after, .ok id)) :
    after.Balanced texts (id :: places) ∧ tables.Extends after ∧
      after.functions.resolve? after.strings id = some place := by
  unfold internPlace at interned
  cases found : tables.functions.find? tables.strings place with
  | none =>
      simp only [found] at interned
      exact balanced.intern_new_place found interned
  | some number =>
      simp only [found] at interned
      have resolved := balanced.resolve?_of_find? found
      obtain ⟨key, key_found, _⟩ := Option.bind_eq_some_iff.mp resolved
      cases retained : tables.functions.set.retain number.value with
      | error cause => simp [FunctionTable.retain, retained, Except.map] at interned
      | ok set =>
          simp only [FunctionTable.retain, retained, Except.map, Prod.mk.injEq,
            Except.ok.injEq] at interned
          obtain ⟨rfl, rfl⟩ := interned
          obtain ⟨gains, same⟩ := balanced.functions.gains_of_retain key_found retained
          have more : tables.Extends { tables with functions := ⟨set⟩ } := extends_of_gains gains
          exact ⟨balanced.gain_place gains same, more, more.resolve?_keeps resolved⟩

/-- A string that was interned twice can be given back together with another one. -/
theorem Balanced.release_pair {first second : StringId}
    (balanced : tables.Balanced (first :: second :: texts) places) :
    ∃ strings, releasePair tables.strings first second = (strings, .ok ()) ∧
      Balanced { tables with strings } texts places ∧
      ∀ other ∈ texts ++ tables.functions.texts,
        strings.lookup? other = tables.strings.lookup? other := by
  obtain ⟨strings, released, balanced', kept⟩ := balanced.release_text
  obtain ⟨strings', released', balanced'', kept'⟩ := balanced'.release_text
  simp only at released'
  refine ⟨strings', by simp [releasePair, released, released'], balanced'', fun other member => ?_⟩
  rw [kept' other member]
  exact kept other (List.mem_cons_of_mem second member)

theorem resolve?_congr {before later : Tables} {id : LocationId}
    (same : later.functions.lookup? id = before.functions.lookup? id)
    (kept : ∀ text ∈ later.functions.texts,
      later.strings.lookup? text = before.strings.lookup? text) :
    later.functions.resolve? later.strings id = before.functions.resolve? before.strings id := by
  cases found : later.functions.lookup? id with
  | none => simp [FunctionTable.resolve?, found, ← same]
  | some place =>
      obtain ⟨name_mem, file_mem⟩ := FunctionTable.mem_texts found
      simp [FunctionTable.resolve?, found, ← same, kept _ name_mem, kept _ file_mem]

/-- A reference to a place that is listed can be given back. -/
theorem Balanced.release_place {id : LocationId} (balanced : tables.Balanced texts (id :: places)) :
    ∃ after, tables.releasePlace id = (after, .ok ()) ∧ after.Balanced texts places ∧
      tables.Keeps after texts places := by
  have referred : 0 < tables.functions.set.references id.value := by
    rw [balanced.references_place]
    exact List.count_pos_iff.mpr (by simp)
  obtain ⟨set, last, released, loses, keys⟩ := balanced.functions.loses_of_release referred
  have listed (other : LocationId) : set.references other.value = places.count other := by
    have counted := balanced.references_place other
    rw [loses.references_eq, List.count_cons] at counted
    by_cases same : other = id
    · simpa [same] using counted
    · have apart : other.value ≠ id.value := fun value => same (congrArg LocationId.mk value)
      simpa [apart, Ne.symm same] using counted
  have place_kept (other : LocationId) (member : other ∈ places) :
      (FunctionTable.mk set).lookup? other = tables.functions.lookup? other := by
    refine loses.key?_eq ?_
    rw [listed]
    exact List.count_pos_iff.mpr member
  cases last with
  | none =>
      refine ⟨{ tables with functions := ⟨set⟩ }, by simp [releasePlace, released],
        ⟨balanced.strings, loses.sound, fun other named => ?_, listed⟩,
        fun _ _ => rfl, fun other member => ?_⟩
      · rw [balanced.references_text other named, List.count_append, List.count_append,
          (texts_perm keys).count_eq]
      · exact resolve?_congr (place_kept other member) fun _ _ => rfl
  | some place =>
      obtain ⟨fewer, _⟩ := keys
      have texts_eq : tables.functions.texts.Perm
          (place.name :: place.file :: (FunctionTable.mk set).texts) :=
        texts_perm_cons ⟨set⟩ fewer
      have balanced' : Balanced { tables with functions := ⟨set⟩ }
          (place.name :: place.file :: texts) places := by
        refine ⟨balanced.strings, loses.sound, fun other named => ?_, listed⟩
        rw [balanced.references_text other named, List.count_append, List.count_append,
          texts_eq.count_eq]
        simp only [List.count_cons]
        omega
      obtain ⟨strings, released', balanced'', kept⟩ := balanced'.release_pair
      refine ⟨{ strings, functions := ⟨set⟩ }, by simp_all [releasePlace], balanced'',
        fun other member => kept other (List.mem_append_left _ member), fun other member => ?_⟩
      exact resolve?_congr (place_kept other member) fun text member =>
        kept text (List.mem_append_right _ member)

end Tables

end HeapSampler
