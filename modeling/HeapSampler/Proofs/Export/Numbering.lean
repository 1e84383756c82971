import Mathlib
import HeapSampler.Proofs.Lists
import HeapSampler.Proofs.Store.References
import HeapSampler.Export.Draft

/-!
# Offsets and numbers of a draft

Drafting only ever adds strings and functions, so an offset or a number that has been given out
stands for the same string or function ever after.
-/

namespace HeapSampler

open Pprof (StringOffset)

namespace Numbering

def string? (numbering : Numbering) (offset : StringOffset) : Option String :=
  numbering.strings[offset.toNat]?

/-- Offsets and numbers that have been given out stand for what they stood for. -/
structure Extends (before after : Numbering) : Prop where
  string?_keeps : ∀ {offset : StringOffset} {text : String},
    before.string? offset = some text → after.string? offset = some text
  messages_keep : ∀ {index : Nat} {message : Pprof.Outgoing.Function},
    before.messages[index]? = some message → after.messages[index]? = some message

def Names (numbering : Numbering) (number : UInt64) (name file : String) : Prop :=
  ∃ index message, numbering.messages[index]? = some message ∧
    number = UInt64.ofNat (index + 1) ∧ numbering.string? message.name = some name ∧
    numbering.string? message.filename = some file

/-- Each function has a message of its own, which has its number and names its strings. -/
structure Sound (texts : StringTable) (numbering : Numbering) : Prop where
  messages_size : numbering.messages.size = numbering.functions.size
  id_eq : ∀ {index : Nat} {message : Pprof.Outgoing.Function},
    numbering.messages[index]? = some message → message.id = UInt64.ofNat (index + 1)
  names : ∀ {index : Nat} {name file : StringId}, numbering.functions[index]? = some (name, file) →
    ∃ functionName fileName, texts.lookup? name = some functionName ∧
      texts.lookup? file = some fileName ∧
      numbering.Names (UInt64.ofNat (index + 1)) functionName fileName

variable {first second third before after : Numbering}

theorem Extends.refl (numbering : Numbering) : numbering.Extends numbering := ⟨id, id⟩

theorem Extends.trans (one : first.Extends second) (two : second.Extends third) :
    first.Extends third :=
  ⟨fun found => two.string?_keeps (one.string?_keeps found),
    fun found => two.messages_keep (one.messages_keep found)⟩

theorem Extends.names_keep (extends_ : before.Extends after) {number : UInt64} {name file : String}
    (named : before.Names number name file) : after.Names number name file := by
  obtain ⟨index, message, found, number_eq, name_found, file_found⟩ := named
  exact ⟨index, message, extends_.messages_keep found, number_eq,
    extends_.string?_keeps name_found, extends_.string?_keeps file_found⟩

theorem sound_empty (texts : StringTable) : Sound texts {} where
  messages_size := rfl
  id_eq found := by simp at found
  names found := by simp at found

end Numbering

namespace Drafting

variable {α β : Type} {before after : Numbering}

/-! ## Steps one after another -/

theorem run_bind {step : Drafting α} {next : α → Drafting β} {value : β}
    (ran : (step >>= next).run before = .ok (value, after)) :
    ∃ first middle, step.run before = .ok (first, middle) ∧
      (next first).run middle = .ok (value, after) := by
  cases stepped : step.run before with
  | error cause =>
      rw [StateT.run_bind, stepped] at ran
      cases ran
  | ok reached =>
      rw [StateT.run_bind, stepped] at ran
      exact ⟨reached.1, reached.2, rfl, ran⟩

/-- What each step finds out about its item and keeps, all of them together find out. -/
theorem run_mapM {step : α → Drafting β} {items : List α} {values : List β}
    (Invariant : Nat → Numbering → Prop) (Finds : Numbering → α → β → Prop) (done : Nat)
    (stepped : ∀ item ∈ items, ∀ {done before after value}, Invariant done before →
      (step item).run before = .ok (value, after) →
        Invariant (done + 1) after ∧ before.Extends after ∧ Finds after item value)
    (keeps : ∀ {before after item value}, before.Extends after →
      Finds before item value → Finds after item value)
    (holds : Invariant done before) (ran : (items.mapM step).run before = .ok (values, after)) :
    Invariant (done + items.length) after ∧ before.Extends after ∧
      List.Forall₂ (Finds after) items values := by
  induction items generalizing done before values with
  | nil =>
      cases ran
      exact ⟨holds, .refl _, .nil⟩
  | cons item rest ih =>
      rw [List.mapM_cons] at ran
      obtain ⟨value, middle, first_ran, ran⟩ := run_bind ran
      obtain ⟨others, last, rest_ran, ran⟩ := run_bind ran
      cases ran
      obtain ⟨first, later⟩ := List.forall_mem_cons.mp stepped
      obtain ⟨middle_holds, first_extends, found⟩ := first holds first_ran
      obtain ⟨after_holds, rest_extends, all_found⟩ := ih (done + 1) later middle_holds rest_ran
      rw [Nat.add_right_comm] at after_holds
      exact ⟨after_holds, first_extends.trans rest_extends,
        .cons (keeps rest_extends found) all_found⟩

/-! ## Strings -/

theorem toNat_of_ofNat? {index : Nat} {offset : StringOffset}
    (made : StringOffset.ofNat? index = some offset) : offset.toNat = index := by
  unfold StringOffset.ofNat? at made
  split at made
  · rename_i bounded
    cases made
    exact UInt32.toNat_ofNat_of_lt bounded
  · cases made

structure AddsStrings (added : List String) (before after : Numbering) : Prop where
  functions_eq : after.functions = before.functions
  messages_eq : after.messages = before.messages
  extends_ : before.Extends after
  known : ∀ text ∈ after.strings, text ∈ before.strings ∨ text ∈ added

theorem AddsStrings.trans {one two : List String} {first second third : Numbering}
    (sooner : AddsStrings one first second) (later : AddsStrings two second third) :
    AddsStrings (one ++ two) first third where
  functions_eq := later.functions_eq.trans sooner.functions_eq
  messages_eq := later.messages_eq.trans sooner.messages_eq
  extends_ := sooner.extends_.trans later.extends_
  known text member := by
    rcases later.known text member with old | new
    · exact (sooner.known text old).imp_right (List.mem_append_left two)
    · exact .inr (List.mem_append_right one new)

theorem AddsStrings.sound {added : List String} {texts : StringTable}
    (adds : AddsStrings added before after) (sound : before.Sound texts) : after.Sound texts where
  messages_size := by rw [adds.messages_eq, adds.functions_eq, sound.messages_size]
  id_eq found := sound.id_eq (adds.messages_eq ▸ found)
  names {index name file} found := by
    rw [adds.functions_eq] at found
    obtain ⟨functionName, fileName, name_found, file_found, named⟩ := sound.names found
    exact ⟨functionName, fileName, name_found, file_found, adds.extends_.names_keep named⟩

theorem adds_of_offsetOf {text : String} {offset : StringOffset}
    (ran : (offsetOf text).run before = .ok (offset, after)) :
    AddsStrings [text] before after ∧ after.string? offset = some text := by
  unfold offsetOf at ran
  obtain ⟨numbering, middle, got, ran⟩ := run_bind ran
  cases got
  cases found : before.strings.idxOf? text with
  | some index =>
      simp only [found] at ran
      split at ran
      · rename_i offset' made
        cases ran
        refine ⟨⟨rfl, rfl, .refl _, fun _ => .inl⟩, ?_⟩
        rw [Numbering.string?, toNat_of_ofNat? made]
        exact getElem?_of_idxOf? found
      · cases ran
  | none =>
      simp only [found] at ran
      split at ran
      · rename_i offset' made
        cases ran
        refine ⟨⟨rfl, rfl, ⟨fun kept => getElem?_push_of_some kept text, id⟩,
          fun other member => ?_⟩,
          ?_⟩
        · rw [List.mem_singleton]
          exact Array.mem_push.mp member
        · rw [Numbering.string?, toNat_of_ofNat? made]
          exact Array.getElem?_push_size
      · cases ran

theorem adds_of_offsetOfId {texts : StringTable} {id : StringId} {offset : StringOffset}
    (ran : (offsetOfId texts id).run before = .ok (offset, after)) :
    ∃ text, texts.lookup? id = some text ∧ AddsStrings [text] before after ∧
      after.string? offset = some text := by
  unfold offsetOfId at ran
  split at ran
  · rename_i text found
    exact ⟨text, found, adds_of_offsetOf ran⟩
  · cases ran

/-! ## Functions -/

def withFunction (numbering : Numbering) (place : Place) (name filename : StringOffset) :
    Numbering :=
  { numbering with
    functions := numbering.functions.push (place.name, place.file)
    messages := numbering.messages.push
      { id := UInt64.ofNat (numbering.functions.size + 1), name, systemName := name, filename } }

theorem extends_withFunction (numbering : Numbering) (place : Place)
    (name filename : StringOffset) :
    numbering.Extends (withFunction numbering place name filename) :=
  ⟨id, fun kept => getElem?_push_of_some kept _⟩

section Function

variable {numbering : Numbering} {texts : StringTable} {place : Place}
    {name filename : StringOffset}
  {functionName fileName : String}

theorem names_withFunction (sound : numbering.Sound texts)
    (named : numbering.string? name = some functionName)
    (filed : numbering.string? filename = some fileName) :
    (withFunction numbering place name filename).Names
      (UInt64.ofNat (numbering.functions.size + 1)) functionName fileName := by
  have last : (withFunction numbering place name filename).messages[numbering.functions.size]? =
      some { id := UInt64.ofNat (numbering.functions.size + 1), name, systemName := name,
             filename } := by
    rw [withFunction, ← sound.messages_size]
    exact Array.getElem?_push_size
  exact ⟨numbering.functions.size, _, last, rfl, named, filed⟩

theorem sound_withFunction (sound : numbering.Sound texts)
    (name_found : texts.lookup? place.name = some functionName)
    (file_found : texts.lookup? place.file = some fileName)
    (named : numbering.string? name = some functionName)
    (filed : numbering.string? filename = some fileName) :
    (withFunction numbering place name filename).Sound texts where
  messages_size := by
    rw [withFunction, Array.size_push, Array.size_push, sound.messages_size]
  id_eq {index message} found := by
    rw [withFunction, Array.getElem?_push] at found
    split at found
    · rename_i last
      cases found
      rw [last, sound.messages_size]
    · exact sound.id_eq found
  names {index own_name own_file} found := by
    rw [withFunction, Array.getElem?_push] at found
    split at found
    · rename_i last
      cases found
      subst last
      exact ⟨functionName, fileName, name_found, file_found, names_withFunction sound named filed⟩
    · obtain ⟨own_functionName, own_fileName, own_name_found, own_file_found, own_named⟩ :=
        sound.names found
      exact ⟨own_functionName, own_fileName, own_name_found, own_file_found,
        (extends_withFunction numbering place name filename).names_keep own_named⟩

end Function

theorem names_of_functionNumber {texts : StringTable} {place : Place} {number : UInt64}
    (sound : before.Sound texts)
    (ran : (functionNumber texts place).run before = .ok (number, after)) :
    after.Sound texts ∧ before.Extends after ∧
      after.functions.size ≤ before.functions.size + 1 ∧
      ∃ functionName fileName, texts.lookup? place.name = some functionName ∧
        texts.lookup? place.file = some fileName ∧ after.Names number functionName fileName ∧
        ∀ text ∈ after.strings, text ∈ before.strings ∨ text ∈ [functionName, fileName] := by
  unfold functionNumber at ran
  obtain ⟨numbering, middle, got, ran⟩ := run_bind ran
  cases got
  cases found : before.functions.idxOf? (place.name, place.file) with
  | some index =>
      simp only [found] at ran
      cases ran
      obtain ⟨functionName, fileName, name_found, file_found, named⟩ :=
        sound.names (getElem?_of_idxOf? found)
      exact ⟨sound, .refl _, Nat.le_succ _, functionName, fileName, name_found, file_found, named,
        fun _ => .inl⟩
  | none =>
      simp only [found] at ran
      obtain ⟨name, named, name_ran, ran⟩ := run_bind ran
      obtain ⟨filename, filed, file_ran, ran⟩ := run_bind ran
      obtain ⟨_, pushed, modified, ran⟩ := run_bind ran
      cases modified
      cases ran
      obtain ⟨functionName, name_found, name_adds, name_named⟩ := adds_of_offsetOfId name_ran
      obtain ⟨fileName, file_found, file_adds, file_named⟩ := adds_of_offsetOfId file_ran
      have adds := name_adds.trans file_adds
      have filed_sound := adds.sound sound
      have name_kept := file_adds.extends_.string?_keeps name_named
      rw [← adds.functions_eq]
      exact ⟨sound_withFunction filed_sound name_found file_found name_kept file_named,
        adds.extends_.trans (extends_withFunction filed place name filename),
        Nat.le_of_eq (Array.size_push _),
        functionName, fileName, name_found, file_found,
        names_withFunction filed_sound name_kept file_named, adds.known⟩

end Drafting

end HeapSampler
