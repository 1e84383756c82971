import Mathlib
import HeapSampler.Proofs.Intern.Balance

/-!
# Tables after any calls

Callers may give back what they do not hold, go on using an id whose last reference is gone, or use
a function table with the strings of another one.  That may spoil what an id stands for, but no two
ids of a table ever stand for the same key.
-/

namespace HeapSampler

namespace InternSet

variable {κ : Type} {set after : InternSet κ} {id : Nat} {key : κ} {last : Option κ}

theorem Sound.retain (sound : set.Sound) (retained : set.retain id = .ok after) :
    after.Sound ∧ after.keys.Perm set.keys := by
  have held : ∃ key, set.key? id = some key := by
    cases found : set.get? id with
    | none => simp [InternSet.retain, found] at retained
    | some interned => exact ⟨interned.key, by rw [key?, found]; rfl⟩
  obtain ⟨key, held⟩ := held
  obtain ⟨gains, same⟩ := sound.gains_of_retain held retained
  exact ⟨gains.sound, same⟩

theorem Sound.release [DecidableEq κ] (sound : set.Sound)
    (released : set.release id = .ok (after, last)) : after.Sound ∧ after.keys ⊆ set.keys := by
  have referred : 0 < set.references id := by
    rw [sound.references_pos_iff]
    cases found : set.get? id with
    | none => simp [InternSet.release, found] at released
    | some interned => exact ⟨interned, rfl⟩
  obtain ⟨after', last', released', loses, keys⟩ := sound.loses_of_release referred
  cases released.symm.trans released'
  refine ⟨loses.sound, ?_⟩
  cases last with
  | none => exact keys.subset
  | some key => exact fun other member => keys.1.symm.subset (List.mem_cons_of_mem key member)

end InternSet

structure StringTable.Sound (table : StringTable) : Prop where
  set : table.set.Sound
  unblank : "" ∉ table.set.keys

namespace StringTable.Sound

variable {table after : StringTable} {text : String} {id first second : StringId}

theorem empty : ({} : StringTable).Sound where
  set := InternSet.sound_empty
  unblank member := by
    obtain ⟨id, held⟩ := InternSet.mem_keys.mp member
    cases id <;> simp [InternSet.key?, InternSet.get?] at held

theorem intern (sound : table.Sound) (interned : table.intern text = .ok (after, id)) :
    after.Sound := by
  unfold StringTable.intern at interned
  split at interned
  · cases interned
    exact sound
  · rename_i named
    cases found : table.set.intern text with
    | error cause => simp [found, Except.map] at interned
    | ok reached =>
        obtain ⟨set, number⟩ := reached
        simp only [found, Except.map, Except.ok.injEq, Prod.mk.injEq] at interned
        obtain ⟨rfl, rfl⟩ := interned
        obtain ⟨gains, keys⟩ := sound.set.gains_of_intern found
        refine ⟨gains.sound, fun member => ?_⟩
        rcases keys with ⟨-, same⟩ | ⟨-, more⟩
        · exact sound.unblank (same.subset member)
        · rcases List.mem_cons.mp (more.subset member) with blank | old
          · exact named blank.symm
          · exact sound.unblank old

theorem retain (sound : table.Sound) (retained : table.retain id = .ok after) : after.Sound := by
  unfold StringTable.retain at retained
  split at retained
  · cases retained
    exact sound
  · cases found : table.set.retain id.value with
    | error cause => simp [found, Except.map] at retained
    | ok set =>
        simp only [found, Except.map, Except.ok.injEq] at retained
        cases retained
        obtain ⟨set_sound, same⟩ := sound.set.retain found
        exact ⟨set_sound, fun member => sound.unblank (same.subset member)⟩

theorem release (sound : table.Sound) (released : table.release id = .ok after) : after.Sound := by
  unfold StringTable.release at released
  split at released
  · cases released
    exact sound
  · cases found : table.set.release id.value with
    | error cause => simp [found, Except.map] at released
    | ok reached =>
        obtain ⟨set, last⟩ := reached
        simp only [found, Except.map, Except.ok.injEq] at released
        cases released
        obtain ⟨set_sound, fewer⟩ := sound.set.release found
        exact ⟨set_sound, fun member => sound.unblank (fewer member)⟩

/-- Two ids of one string are the same. -/
theorem id_eq (sound : table.Sound) (one : table.lookup? first = some text)
    (two : table.lookup? second = some text) : first = second := by
  have named {id : StringId} (found : table.lookup? id = some text) :
      id = .empty ∧ text = "" ∨ id ≠ .empty ∧ text ≠ "" ∧ table.set.key? id.value = some text := by
    by_cases blank : id = .empty
    · refine .inl ⟨blank, ?_⟩
      rw [lookup?, if_pos blank] at found
      exact (Option.some.inj found).symm
    · rw [lookup?_eq_key? _ blank] at found
      refine .inr ⟨blank, ?_, found⟩
      rintro rfl
      exact sound.unblank (InternSet.mem_keys.mpr ⟨_, found⟩)
  rcases named one with ⟨rfl, blank⟩ | ⟨-, worded, held⟩
  · rcases named two with ⟨rfl, -⟩ | ⟨-, worded, -⟩
    · rfl
    · exact absurd blank worded
  · rcases named two with ⟨-, blank⟩ | ⟨-, -, held'⟩
    · exact absurd blank worded
    · obtain ⟨interned, found, key_eq⟩ := Option.map_eq_some_iff.mp held
      obtain ⟨interned', found', key_eq'⟩ := Option.map_eq_some_iff.mp held'
      have same := sound.set.id_unique found found' (key_eq.trans key_eq'.symm)
      exact congrArg StringId.mk same

end StringTable.Sound

namespace Tables

structure Sound (tables : Tables) : Prop where
  strings : tables.strings.Sound
  functions : tables.functions.set.Sound

inductive Call where
  | intern (text : String)
  | retain (id : StringId)
  | release (id : StringId)
  | internPlace (place : NamedPlace)
  | retainPlace (id : LocationId)
  | releasePlace (id : LocationId)

def perform (tables : Tables) : Call → Tables
  | .intern text =>
      match tables.strings.intern text with
      | .ok (strings, _) => { tables with strings }
      | .error _ => tables
  | .retain id =>
      match tables.strings.retain id with
      | .ok strings => { tables with strings }
      | .error _ => tables
  | .release id =>
      match tables.strings.release id with
      | .ok strings => { tables with strings }
      | .error _ => tables
  | .internPlace place => (tables.internPlace place).1
  | .retainPlace id =>
      match tables.functions.retain id with
      | .ok functions => { tables with functions }
      | .error _ => tables
  | .releasePlace id => (tables.releasePlace id).1

inductive Reachable : Tables → Prop
  | empty : Reachable {}
  | called {tables : Tables} (reached : Reachable tables) (call : Call) :
      Reachable (tables.perform call)
  /-- The strings of one pair are used with the functions of another. -/
  | crossed {tables others : Tables} (reached : Reachable tables) (reached' : Reachable others) :
      Reachable { strings := tables.strings, functions := others.functions }

variable {tables : Tables} {strings after : StringTable} {first second : StringId}

theorem sound_releasePair {result : Except InternError Unit} (sound : strings.Sound)
    (went : releasePair strings first second = (after, result)) : after.Sound := by
  unfold releasePair at went
  split at went
  · cases went
    exact sound
  · rename_i middle released
    split at went
    · cases went
      exact sound.release released
    · rename_i last released'
      cases went
      exact (sound.release released).release released'

namespace Sound

theorem empty : ({} : Tables).Sound := ⟨.empty, InternSet.sound_empty⟩

theorem addPlace (sound : tables.Sound) (place : NamedPlace) : (tables.addPlace place).1.Sound := by
  unfold Tables.addPlace
  split
  · exact sound
  · rename_i named name name_interned
    have named_sound := sound.strings.intern name_interned
    split
    · split
      · rename_i released
        exact ⟨named_sound.release released, sound.functions⟩
      · exact ⟨named_sound, sound.functions⟩
    · rename_i filed file file_interned
      have filed_sound := named_sound.intern file_interned
      split
      · rename_i set id interned
        exact ⟨filed_sound, (sound.functions.gains_of_intern interned).1.sound⟩
      · split
        · rename_i went
          exact ⟨sound_releasePair filed_sound went, sound.functions⟩
        · rename_i went
          exact ⟨sound_releasePair filed_sound went, sound.functions⟩

theorem internPlace (sound : tables.Sound) (place : NamedPlace) :
    (tables.internPlace place).1.Sound := by
  unfold Tables.internPlace
  split
  · rename_i id found
    cases retained : tables.functions.set.retain id.value with
    | error cause =>
        simp only [FunctionTable.retain, retained, Except.map]
        exact sound
    | ok set =>
        simp only [FunctionTable.retain, retained, Except.map]
        exact ⟨sound.strings, (sound.functions.retain retained).1⟩
  · exact sound.addPlace place

theorem releasePlace (sound : tables.Sound) (id : LocationId) :
    (tables.releasePlace id).1.Sound := by
  unfold Tables.releasePlace
  split
  · exact sound
  · rename_i set released
    exact ⟨sound.strings, (sound.functions.release released).1⟩
  · rename_i set place released
    exact ⟨sound_releasePair sound.strings rfl, (sound.functions.release released).1⟩

theorem perform (sound : tables.Sound) (call : Call) : (tables.perform call).Sound := by
  cases call with
  | intern text =>
      simp only [Tables.perform]
      split
      · rename_i interned
        exact ⟨sound.strings.intern interned, sound.functions⟩
      · exact sound
  | retain id =>
      simp only [Tables.perform]
      split
      · rename_i retained
        exact ⟨sound.strings.retain retained, sound.functions⟩
      · exact sound
  | release id =>
      simp only [Tables.perform]
      split
      · rename_i released
        exact ⟨sound.strings.release released, sound.functions⟩
      · exact sound
  | internPlace place => exact sound.internPlace place
  | retainPlace id =>
      simp only [Tables.perform, FunctionTable.retain]
      cases retained : tables.functions.set.retain id.value with
      | error cause => exact sound
      | ok set => exact ⟨sound.strings, (sound.functions.retain retained).1⟩
  | releasePlace id => exact sound.releasePlace id

end Sound

theorem Reachable.sound (reached : Reachable tables) : tables.Sound := by
  induction reached with
  | empty => exact .empty
  | called _ call ih => exact ih.perform call
  | crossed _ _ ih ih' => exact ⟨ih.strings, ih'.functions⟩

/-! ## What ids stand for -/

theorem Sound.place_id_eq (sound : tables.Sound) {first second : LocationId} {place : Place}
    (one : tables.functions.lookup? first = some place)
    (two : tables.functions.lookup? second = some place) : first = second := by
  obtain ⟨interned, found, key_eq⟩ := Option.map_eq_some_iff.mp one
  obtain ⟨interned', found', key_eq'⟩ := Option.map_eq_some_iff.mp two
  exact congrArg LocationId.mk (sound.functions.id_unique found found' (key_eq.trans key_eq'.symm))

/-- Places are told apart by their names, their files and their lines. -/
theorem Sound.named_id_eq (sound : tables.Sound) {first second : LocationId} {place : NamedPlace}
    (one : tables.functions.resolve? tables.strings first = some place)
    (two : tables.functions.resolve? tables.strings second = some place) : first = second := by
  rw [FunctionTable.resolve?_eq_some_iff] at one two
  obtain ⟨⟨name, file, line⟩, found, named, filed, line_eq⟩ := one
  obtain ⟨⟨name', file', line'⟩, found', named', filed', line_eq'⟩ := two
  cases sound.strings.id_eq named named'
  cases sound.strings.id_eq filed filed'
  cases line_eq.trans line_eq'.symm
  exact sound.place_id_eq found found'

end Tables

end HeapSampler
