import Mathlib
import HeapSampler.Proofs.Store.References

/-!
# When interning fails

Balanced tables give back every reference that is listed, so only taking a reference can fail, and
then for one of two reasons: a count has reached its end, or the ids have.
-/

namespace HeapSampler

def InternError.IsExhaustion : InternError → Prop
  | refcountOverflow | idsExhausted => True
  | unknownId _ => False

namespace InternSet

variable {κ : Type} {set : InternSet κ} {id : Nat} {key : κ} {cause : InternError}

/-- A set is at the end of its means: there is an id that has all the references it can have, or
there are as many ids as there can be. -/
inductive Spent (set : InternSet κ) : InternError → Prop where
  | counts {id : Nat} {interned : Interned κ} (present : set.get? id = some interned)
      (full : maxWord ≤ interned.count) : Spent set .refcountOverflow
  | ids (full : set.size = maxWord) : Spent set .idsExhausted

theorem Spent.isExhaustion (spent : set.Spent cause) : cause.IsExhaustion := by
  cases spent <;> trivial

/-- An id that is held gets another reference until its count has reached the end. -/
theorem spent_of_retain (held : set.key? id = some key) (failed : set.retain id = .error cause) :
    set.Spent cause := by
  obtain ⟨interned, present, -⟩ := Option.map_eq_some_iff.mp held
  simp only [retain, present] at failed
  split at failed
  · cases failed
  · rename_i full
    cases failed
    exact .counts present (Nat.le_of_not_lt full)

theorem Sound.spent_of_add [DecidableEq κ] (sound : set.Sound)
    (failed : set.add key = .error cause) : set.Spent cause := by
  unfold add at failed
  split at failed
  · cases failed
  · rename_i full
    cases failed
    refine .ids ?_
    cases vacant : set.slab.free with
    | nil =>
        have many := sound.size_le
        rw [Slab.next, vacant, List.head?_nil, Option.getD_none] at full
        rw [sound.size_eq_occupied, sound.slab.occupied_eq_size vacant]
        omega
    | cons index rest =>
        have inside := ((sound.slab.mem_free_iff index).mp (vacant ▸ List.mem_cons_self)).1
        rw [Slab.next, vacant, List.head?_cons, Option.getD_some] at full
        exact absurd (inside.trans_le sound.size_le) full

theorem Sound.spent_of_intern [DecidableEq κ] (sound : set.Sound)
    (failed : set.intern key = .error cause) : set.Spent cause := by
  unfold intern at failed
  split at failed
  · rename_i place found
    cases retained : set.retain place with
    | ok after => simp [retained, Except.map] at failed
    | error own =>
        simp only [retained, Except.map, Except.error.injEq] at failed
        subst failed
        exact spent_of_retain (sound.find?_eq_some_iff.mp found) retained
  · exact sound.spent_of_add failed

end InternSet

namespace Tables

/--
One of the tables is at the end of its means, or that of the strings is after one string more.
-/
def Spent (tables : Tables) (cause : InternError) : Prop :=
  tables.strings.set.Spent cause ∨ tables.functions.set.Spent cause ∨
    ∃ text strings id, tables.strings.intern text = .ok (strings, id) ∧ strings.set.Spent cause

theorem Spent.isExhaustion {tables : Tables} {cause : InternError} (spent : tables.Spent cause) :
    cause.IsExhaustion := by
  rcases spent with spent | spent | ⟨text, strings, id, interned, spent⟩
  · exact spent.isExhaustion
  · exact spent.isExhaustion
  · exact spent.isExhaustion

end Tables

namespace Tables.Balanced

variable {tables after : Tables} {texts : List StringId} {places : List LocationId}
  {cause : InternError}

theorem spent_of_text (balanced : tables.Balanced texts places) {text : String}
    (failed : tables.strings.intern text = .error cause) : tables.strings.set.Spent cause := by
  unfold StringTable.intern at failed
  split at failed
  · cases failed
  · cases interned : tables.strings.set.intern text with
    | ok reached => simp [interned, Except.map] at failed
    | error own =>
        simp only [interned, Except.map, Except.error.injEq] at failed
        subst failed
        exact balanced.strings.spent_of_intern interned

/-- What was interned for a new place can be given back, so the first failure is reported and
nothing is left of the attempt. -/
theorem fail_new_place (balanced : tables.Balanced texts places) {place : NamedPlace}
    (failed : tables.addPlace place = (after, .error cause)) :
    tables.Spent cause ∧ after.Balanced texts places ∧ after.functions = tables.functions := by
  unfold addPlace at failed
  cases name_interned : tables.strings.intern place.functionName with
  | error own =>
      simp only [name_interned, Prod.mk.injEq, Except.error.injEq] at failed
      obtain ⟨rfl, rfl⟩ := failed
      exact ⟨.inl (balanced.spent_of_text name_interned), balanced, rfl⟩
  | ok named =>
      obtain ⟨strings, name⟩ := named
      obtain ⟨balanced_name, -, -⟩ := balanced.intern_text name_interned
      simp only [name_interned] at failed
      cases file_interned : strings.intern place.fileName with
      | error own =>
          obtain ⟨left, released, balanced', -⟩ := balanced_name.release_text
          simp only at released
          simp only [file_interned, released, Prod.mk.injEq, Except.error.injEq] at failed
          obtain ⟨rfl, rfl⟩ := failed
          exact ⟨.inr (.inr ⟨_, _, _, name_interned, balanced_name.spent_of_text file_interned⟩),
            balanced', rfl⟩
      | ok filed =>
          obtain ⟨strings', file⟩ := filed
          obtain ⟨balanced_file, -, -⟩ := balanced_name.intern_text file_interned
          simp only [file_interned] at failed
          cases key_interned : tables.functions.set.intern { name, file, line := place.line } with
          | ok keyed => simp [key_interned] at failed
          | error own =>
              obtain ⟨left, released, balanced', -⟩ :=
                (balanced_file.congr (.swap name file texts) (.refl _)).release_pair
              simp only at released
              simp only [key_interned, released, Prod.mk.injEq, Except.error.injEq] at failed
              obtain ⟨rfl, rfl⟩ := failed
              exact ⟨.inr (.inl (balanced.functions.spent_of_intern key_interned)), balanced', rfl⟩

theorem fail_place (balanced : tables.Balanced texts places) {place : NamedPlace}
    (failed : tables.internPlace place = (after, .error cause)) :
    tables.Spent cause ∧ after.Balanced texts places ∧ after.functions = tables.functions := by
  unfold internPlace at failed
  cases found : tables.functions.find? tables.strings place with
  | none =>
      simp only [found] at failed
      exact balanced.fail_new_place failed
  | some id =>
      obtain ⟨key, key_found, -⟩ := Option.bind_eq_some_iff.mp (balanced.resolve?_of_find? found)
      cases retained : tables.functions.set.retain id.value with
      | ok set => simp [found, FunctionTable.retain, retained, Except.map] at failed
      | error own =>
          simp only [found, FunctionTable.retain, retained, Except.map, Prod.mk.injEq,
            Except.error.injEq] at failed
          obtain ⟨rfl, rfl⟩ := failed
          exact ⟨.inr (.inl (InternSet.spent_of_retain key_found retained)), balanced, rfl⟩

theorem exhausted_of_places (balanced : tables.Balanced texts places) {named : List NamedPlace}
    (failed : tables.internPlaces named = .error cause) : cause.IsExhaustion := by
  induction named generalizing tables places with
  | nil => cases failed
  | cons place rest ih =>
      unfold internPlaces at failed
      split at failed
      · rename_i middle own first_failed
        cases failed
        exact (balanced.fail_place first_failed).1.isExhaustion
      · rename_i middle id first_interned
        obtain ⟨first_balanced, -, -⟩ := balanced.intern_place first_interned
        cases others : middle.internPlaces rest with
        | ok reached => simp [others, Except.map] at failed
        | error own =>
            simp only [others, Except.map, Except.error.injEq] at failed
            subst failed
            exact ih first_balanced others

theorem exhausted_of_tag (balanced : tables.Balanced texts places) {tag : String × String}
    (failed : tables.internTag tag = .error cause) : cause.IsExhaustion := by
  unfold internTag at failed
  simp only [bind, Except.bind, pure, Except.pure] at failed
  split at failed
  · rename_i own key_failed
    cases failed
    exact (balanced.spent_of_text key_failed).isExhaustion
  · rename_i keyed key_interned
    obtain ⟨key_balanced, -, -⟩ := balanced.intern_text key_interned
    split at failed
    · rename_i own value_failed
      cases failed
      exact (key_balanced.spent_of_text value_failed).isExhaustion
    · cases failed

theorem exhausted_of_tags (balanced : tables.Balanced texts places)
    {tags : List (String × String)} (failed : tables.internTags tags = .error cause) :
    cause.IsExhaustion := by
  induction tags generalizing tables texts with
  | nil => cases failed
  | cons tag rest ih =>
      simp only [internTags, bind, Except.bind, pure, Except.pure] at failed
      split at failed
      · rename_i own first_failed
        cases failed
        exact balanced.exhausted_of_tag first_failed
      · rename_i first first_interned
        obtain ⟨first_balanced, -, -⟩ := balanced.intern_tag first_interned
        split at failed
        · rename_i own others_failed
          cases failed
          exact ih first_balanced others_failed
        · cases failed

end Tables.Balanced

end HeapSampler
