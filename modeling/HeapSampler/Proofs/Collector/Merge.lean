import Mathlib
import HeapSampler.Proofs.Collector.EarlyDrop
import HeapSampler.Proofs.Config.Override
import HeapSampler.Proofs.Intern.Lifetimes

/-!
# The tags of a sample

The tags of a sample are the global ones with those of its allocation set in them, and what is kept
of them is ids.  The ids stand for exactly these tags.  Interning them adds one reference for every
time that a string is a key or a value of such a tag, the empty string apart, which is not counted;
no other entry of the tables changes.
-/

namespace HeapSampler

def tagTexts (tags : List (String × String)) : List String :=
  tags.flatMap fun tag => [tag.1, tag.2]

namespace StringTable

variable {table after : StringTable} {id : StringId} {text : String} {ids : List StringId}
  {texts : List String}

theorem Gains.lookup?_keeps (gains : table.Gains after ids) (held : table.lookup? id = some text) :
    after.lookup? id = some text := by
  by_cases blank : id = .empty
  · rw [lookup?, if_pos blank] at held ⊢
    exact held
  · rw [lookup?_eq_key? _ blank] at held ⊢
    exact gains.key?_keeps held

/-- Strings are listed as often as their ids. -/
theorem Sound.count_eq (sound : table.Sound) (resolved : ids.map table.lookup? = texts.map some)
    (held : table.lookup? id = some text) : ids.count id = texts.count text := by
  induction ids generalizing texts with
  | nil =>
      have none_left : texts = [] := by simpa using resolved.symm
      rw [none_left, List.count_nil, List.count_nil]
  | cons first rest ih =>
      cases texts with
      | nil => cases resolved
      | cons own others =>
          obtain ⟨found, resolved⟩ := List.cons.inj resolved
          have same : first = id ↔ own = text := by
            constructor
            · rintro rfl
              exact Option.some.inj (found.symm.trans held)
            · rintro rfl
              exact sound.id_eq found held
          rw [List.count_cons, List.count_cons, ih resolved]
          simp only [beq_iff_eq, same]

theorem lookup?_eq_some (named : id ≠ .empty) (held : table.lookup? id = some text) :
    ∃ entry, table.set.get? id.value = some entry ∧ entry.key = text := by
  rw [lookup?_eq_key? _ named] at held
  exact Option.map_eq_some_iff.mp held

end StringTable

namespace Tables

variable {tables after : Tables} {texts : List String}

/-- Strings have been interned: each has as many references more as it is listed, and everything
else is as it was. -/
structure Interns (before after : Tables) (texts : List String) : Prop where
  kept : ∀ id text, before.strings.lookup? id = some text → after.strings.lookup? id = some text
  counted : ∀ id text, id ≠ .empty → after.strings.lookup? id = some text →
    after.strings.count? id = some ((before.strings.count? id).getD 0 + texts.count text)
  untouched : ∀ id, (∀ text ∈ texts, after.strings.lookup? id ≠ some text) →
    after.strings.set.get? id.value = before.strings.set.get? id.value
  functions_eq : after.functions = before.functions

/-- References that are added to ids are references to the strings that the ids stand for. -/
theorem interns_of_gains {ids : List StringId} (sound : after.strings.Sound)
    (gains : tables.strings.Gains after.strings ids)
    (resolved : ids.map after.strings.lookup? = texts.map some)
    (functions_eq : after.functions = tables.functions) : tables.Interns after texts := by
  constructor
  · exact fun id text => gains.lookup?_keeps
  · intro id text named held
    obtain ⟨entry, present, -⟩ := StringTable.lookup?_eq_some named held
    have counted := gains.references_eq id named
    rw [InternSet.references_of_get? present, sound.count_eq resolved held] at counted
    rw [StringTable.count?, present, Option.map_some, counted]
    rfl
  · intro id absent
    by_cases blank : id = .empty
    · rw [blank]
      rfl
    · have unlisted : ids.count id = 0 := by
        rw [List.count_eq_zero]
        intro listed
        have found : after.strings.lookup? id ∈ texts.map some :=
          resolved ▸ List.mem_map_of_mem listed
        obtain ⟨text, member, same⟩ := List.mem_map.mp found
        exact absent text member same.symm
      apply gains.sound.get?_eq
      · rw [gains.references_eq id blank, unlisted, Nat.add_zero]
      · exact fun _ => gains.key?_keeps
  · exact functions_eq

theorem resolved_of_tags {ids : List Tag} {tags : List (String × String)}
    (resolved : ids.map tables.tag? = tags.map some) :
    (ids.flatMap Tag.texts).map tables.strings.lookup? = (tagTexts tags).map some := by
  induction ids generalizing tags with
  | nil =>
      have none_left : tags = [] := by simpa using resolved.symm
      rw [none_left]
      rfl
  | cons id rest ih =>
      cases tags with
      | nil => cases resolved
      | cons tag others =>
          obtain ⟨found, resolved⟩ := List.cons.inj resolved
          obtain ⟨key, value⟩ := tag?_eq_some_iff.mp found
          rw [List.flatMap_cons, List.map_append, ih resolved, tagTexts, tagTexts,
            List.flatMap_cons, List.map_append]
          simp [Tag.texts, key, value]

/-- Whatever tables they are interned in, the ids of tags stand for the tags. -/
theorem sound_of_internTags (sound : tables.strings.Sound) {tags : List (String × String)}
    {ids : List Tag} (interned : tables.internTags tags = .ok (after, ids)) :
    after.strings.Sound ∧ ids.map after.tag? = tags.map some := by
  induction tags generalizing tables ids with
  | nil =>
      cases interned
      exact ⟨sound, rfl⟩
  | cons tag rest ih =>
      obtain ⟨middle, id, others, first_interned, others_interned, rfl⟩ :=
        steps_of_internTags interned
      obtain ⟨keyed, valued, key_interned, value_interned, rfl⟩ := steps_of_internTag first_interned
      have key_sound := sound.intern key_interned
      have value_sound := key_sound.intern value_interned
      obtain ⟨after_sound, resolved⟩ := ih value_sound others_interned
      refine ⟨after_sound, ?_⟩
      have value_gains := (StringTable.Gains.refl key_sound.set).intern value_interned
      have later_gains := (gains_of_internTags (.refl value_sound.set) others_interned).1
      have key_found := (sound.lookup?_of_intern key_interned).1
      have value_found := (key_sound.lookup?_of_intern value_interned).1
      have found : after.tag? id = some tag := by
        rw [tag?_eq_some_iff]
        constructor
        · exact later_gains.lookup?_keeps (value_gains.lookup?_keeps key_found)
        · exact later_gains.lookup?_keeps value_found
      rw [List.map_cons, List.map_cons, resolved, found]

theorem exhausted_of_internTags (sound : tables.strings.Sound) {tags : List (String × String)}
    {cause : InternError} (failed : tables.internTags tags = .error cause) :
    cause.IsExhaustion := by
  induction tags generalizing tables with
  | nil => cases failed
  | cons tag rest ih =>
      simp only [internTags, internTag, bind, Except.bind, pure, Except.pure] at failed
      cases key_interned : tables.strings.intern tag.1 with
      | error own =>
          simp only [key_interned, Except.error.injEq] at failed
          exact failed ▸ sound.exhausted_of_intern key_interned
      | ok keyed =>
          have key_sound := sound.intern key_interned
          cases value_interned : keyed.1.intern tag.2 with
          | error own =>
              simp only [key_interned, value_interned, Except.error.injEq] at failed
              exact failed ▸ key_sound.exhausted_of_intern value_interned
          | ok valued =>
              have value_sound := key_sound.intern value_interned
              simp only [key_interned, value_interned] at failed
              split at failed
              · rename_i own others_failed
                cases failed
                exact ih value_sound others_failed
              · cases failed

/-- The tags that a sample gets in any tables are the global ones with its own set in them, and
every string of theirs has one reference more for each time that it occurs in them.  Interning them
can only fail at the end of the counts or of the ids, and does not fail as long as there is room. -/
theorem overridden_of_internTags (reached : tables.Reachable) (map : TagMap)
    (tags : List (String × String)) :
    (∀ after ids, tables.internTags (overlay map.entries tags) = .ok (after, ids) →
      ∃ merged, ids.map after.tag? = merged.map some ∧ map.Overridden tags merged ∧
        tables.Interns after (tagTexts merged)) ∧
      (tables.strings.Room (2 * (overlay map.entries tags).length) →
        ∃ after ids, tables.internTags (overlay map.entries tags) = .ok (after, ids)) ∧
      ∀ cause, tables.internTags (overlay map.entries tags) = .error cause →
        cause.IsExhaustion := by
  have sound := reached.sound.strings
  refine ⟨fun after ids interned => ?_, fun room => ?_, fun cause failed => ?_⟩
  · obtain ⟨after_sound, resolved⟩ := sound_of_internTags sound interned
    obtain ⟨gains, functions_eq⟩ := gains_of_internTags (.refl sound.set) interned
    rw [List.append_nil] at gains
    refine ⟨overlay map.entries tags, resolved, map.overridden_overlay tags, ?_⟩
    exact interns_of_gains after_sound gains (resolved_of_tags resolved) functions_eq
  · exact exists_of_internTags sound.set room
  · exact exhausted_of_internTags sound failed

def jobTables : Tables := ({} : Tables).perform (.intern "job")

/-- Two global tags, written against the order of their keys. -/
def siteTags : TagMap := .ofList [("zone", "eu"), ("app", "mail")]

def repeatedTags : List (String × String) :=
  [("job", "mail"), ("zone", ""), ("job", "app"), ("", "job")]

theorem overridden_of_repeatedTags :
    ∃ after ids, jobTables.internTags (overlay siteTags.entries repeatedTags) = .ok (after, ids) ∧
      ids.map after.tag? =
        [some ("app", "mail"), some ("zone", ""), some ("job", "app"), some ("", "job")] ∧
      jobTables.strings.count? ⟨1⟩ = some 1 ∧ after.strings.count? ⟨1⟩ = some 3 ∧
      ∃ merged, ids.map after.tag? = merged.map some ∧ siteTags.Overridden repeatedTags merged ∧
        jobTables.Interns after (tagTexts merged) := by
  have reached : jobTables.Reachable := Reachable.empty.called _
  have checked : (jobTables.internTags (overlay siteTags.entries repeatedTags)).toOption.any
      (fun run => decide (run.2.map run.1.tag? =
          [some ("app", "mail"), some ("zone", ""), some ("job", "app"), some ("", "job")]) &&
        decide (run.1.strings.count? ⟨1⟩ = some 3)) = true := by decide +kernel
  cases interned : jobTables.internTags (overlay siteTags.entries repeatedTags) with
  | error cause => simp [interned, Except.toOption] at checked
  | ok run =>
      obtain ⟨after, ids⟩ := run
      simp only [interned, Except.toOption, Option.any_some, Bool.and_eq_true, decide_eq_true_eq]
        at checked
      refine ⟨after, ids, rfl, checked.1, by decide +kernel, checked.2, ?_⟩
      exact (overridden_of_internTags reached siteTags repeatedTags).1 after ids interned

end Tables

end HeapSampler
