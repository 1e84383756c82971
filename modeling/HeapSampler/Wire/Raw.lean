import HeapSampler.Wire.Varint

/-!
# Fields as they lie in the bytes

A message is a run of fields.  Each opens with a key, which gives its number and its kind, and the
kind alone says where it ends, so a message can be cut into fields before anything is known about
their meaning.  Groups are brackets around further fields; nothing this library reads is a group,
so their contents are skipped, but their brackets have to match and may not nest too deeply.
-/

namespace HeapSampler.Wire

inductive WireKind where
  | varint
  | fixed64
  | delimited
  | groupStart
  | groupEnd
  | fixed32
  deriving DecidableEq, Repr

namespace WireKind

def code : WireKind → Nat
  | varint => 0
  | fixed64 => 1
  | delimited => 2
  | groupStart => 3
  | groupEnd => 4
  | fixed32 => 5

def ofCode? : Nat → Option WireKind
  | 0 => some varint
  | 1 => some fixed64
  | 2 => some delimited
  | 3 => some groupStart
  | 4 => some groupEnd
  | 5 => some fixed32
  | _ => none

@[simp] theorem ofCode?_code (kind : WireKind) : ofCode? kind.code = some kind := by
  cases kind <;> rfl

theorem code_lt (kind : WireKind) : kind.code < 8 := by
  cases kind <;> decide

end WireKind

def key (number : Nat) (kind : WireKind) : Nat :=
  number * 8 + kind.code

def readKey? (input : List UInt8) : Option (Nat × WireKind × List UInt8) :=
  match Varint.decode? input with
  | none => none
  | some (key, rest) =>
      if key < UInt32.size ∧ 8 ≤ key then
        (WireKind.ofCode? (key % 8)).map fun kind => (key / 8, kind, rest)
      else none

def takeExact? (count : Nat) (input : List UInt8) : Option (List UInt8 × List UInt8) :=
  let taken := input.take count
  if taken.length = count then some (taken, input.drop count) else none

/-- Splits off a run of bytes whose length is written in front of it. -/
def takeDelimited? (input : List UInt8) : Option (List UInt8 × List UInt8) :=
  match Varint.decode? input with
  | none => none
  | some (length, rest) => takeExact? length rest

/-- The content of a field, before its message says what the content means. -/
inductive Raw where
  | varint (value : Nat)
  | fixed64
  | delimited (payload : List UInt8)
  | group
  | fixed32
  deriving DecidableEq, Repr

theorem length_lt_of_readKey? {number : Nat} {kind : WireKind} {input rest : List UInt8}
    (read : readKey? input = some (number, kind, rest)) : rest.length < input.length := by
  unfold readKey? at read
  split at read
  · simp at read
  · rename_i inner
    split at read
    · obtain ⟨_, _, same⟩ := Option.map_eq_some_iff.mp read
      simp only [Prod.mk.injEq] at same
      exact same.2.2 ▸ Varint.length_lt_of_decode? inner
    · simp at read

theorem length_of_takeExact? {count : Nat} {input taken rest : List UInt8}
    (read : takeExact? count input = some (taken, rest)) :
    taken.length = count ∧ input = taken ++ rest := by
  simp only [takeExact?] at read
  split at read
  · rename_i length
    simp only [Option.some.injEq, Prod.mk.injEq] at read
    obtain ⟨rfl, rfl⟩ := read
    exact ⟨length, (List.take_append_drop count input).symm⟩
  · simp at read

theorem length_le_of_takeExact? {count : Nat} {input taken rest : List UInt8}
    (read : takeExact? count input = some (taken, rest)) : rest.length ≤ input.length := by
  simp [(length_of_takeExact? read).2]

theorem length_lt_of_takeDelimited? {input taken rest : List UInt8}
    (read : takeDelimited? input = some (taken, rest)) : rest.length < input.length := by
  unfold takeDelimited? at read
  split at read
  · simp at read
  · rename_i inner
    have shorter := Varint.length_lt_of_decode? inner
    have notLonger := length_le_of_takeExact? read
    omega

def skipContent? (kind : WireKind) (input : List UInt8) : Option (List UInt8) :=
  match kind with
  | .varint => (Varint.decode? input).map Prod.snd
  | .fixed64 => (takeExact? 8 input).map Prod.snd
  | .delimited => (takeDelimited? input).map Prod.snd
  | .fixed32 => (takeExact? 4 input).map Prod.snd
  | .groupStart | .groupEnd => none

theorem length_le_of_skipContent? {kind : WireKind} {input rest : List UInt8}
    (read : skipContent? kind input = some rest) : rest.length ≤ input.length := by
  cases kind <;> simp only [skipContent?, reduceCtorEq] at read
  all_goals
    obtain ⟨⟨first, rest'⟩, inner, same⟩ := Option.map_eq_some_iff.mp read
    subst same
  · exact Nat.le_of_lt (Varint.length_lt_of_decode? inner)
  · exact length_le_of_takeExact? inner
  · exact Nat.le_of_lt (length_lt_of_takeDelimited? inner)
  · exact length_le_of_takeExact? inner

/--
Skips fields until every group of `open` (innermost first) has been closed.  A field may lie
within fewer than `levels` groups.
-/
def skipGroups? (levels : Nat) (openGroups : List Nat) (input : List UInt8) :
    Option (List UInt8) :=
  match openGroups with
  | [] => some input
  | group :: outer =>
      match _opened : readKey? input with
      | none => none
      | some (number, .groupEnd, rest) =>
          if number = group then skipGroups? levels outer rest else none
      | some (number, .groupStart, rest) =>
          if outer.length + 1 < levels then skipGroups? levels (number :: group :: outer) rest
          else none
      | some (_, kind, rest) =>
          if outer.length + 1 < levels then
            match _skipped : skipContent? kind rest with
            | none => none
            | some rest' => skipGroups? levels (group :: outer) rest'
          else none
termination_by input.length
decreasing_by
  · exact length_lt_of_readKey? _opened
  · exact length_lt_of_readKey? _opened
  · exact Nat.lt_of_le_of_lt (length_le_of_skipContent? _skipped) (length_lt_of_readKey? _opened)

/-- Skipping groups never lengthens the input. -/
theorem length_le_of_skipGroups? {levels : Nat} {openGroups : List Nat} {input rest : List UInt8}
    (skip : skipGroups? levels openGroups input = some rest) : rest.length ≤ input.length := by
  fun_induction skipGroups? levels openGroups input
  case case1 => simp_all
  case case3 opened ih =>
    have := length_lt_of_readKey? opened
    have := ih skip
    omega
  case case5 opened _ ih =>
    have := length_lt_of_readKey? opened
    have := ih skip
    omega
  case case8 opened _ _ skipped ih =>
    have := length_lt_of_readKey? opened
    have := length_le_of_skipContent? skipped
    have := ih skip
    omega
  all_goals simp at skip

def readField? (levels : Nat) (input : List UInt8) : Option ((Nat × Raw) × List UInt8) :=
  match readKey? input with
  | none => none
  | some (number, .varint, rest) =>
      (Varint.decode? rest).map fun (value, rest) => ((number, .varint value), rest)
  | some (number, .fixed64, rest) =>
      (takeExact? 8 rest).map fun (_, rest) => ((number, .fixed64), rest)
  | some (number, .delimited, rest) =>
      (takeDelimited? rest).map fun (payload, rest) => ((number, .delimited payload), rest)
  | some (number, .groupStart, rest) =>
      (skipGroups? levels [number] rest).map fun rest => ((number, .group), rest)
  | some (_, .groupEnd, _) => none
  | some (number, .fixed32, rest) =>
      (takeExact? 4 rest).map fun (_, rest) => ((number, .fixed32), rest)

theorem length_lt_of_readField? {levels : Nat} {input rest : List UInt8} {field : Nat × Raw}
    (read : readField? levels input = some (field, rest)) : rest.length < input.length := by
  unfold readField? at read
  split at read
  · simp at read
  all_goals first
    | (obtain ⟨inner, content, same⟩ := Option.map_eq_some_iff.mp read
       simp only [Prod.mk.injEq] at same
       rename_i opened
       have := length_lt_of_readKey? opened
       first
         | have := Varint.length_lt_of_decode? content
         | have := length_lt_of_takeDelimited? content
         | have := length_le_of_takeExact? content
         | have := length_le_of_skipGroups? content
       rw [← same.2]
       omega)
    | simp at read

def fields? (levels : Nat) (input : List UInt8) : Option (List (Nat × Raw)) :=
  match input with
  | [] => some []
  | byte :: tail =>
      match _first : readField? levels (byte :: tail) with
      | none => none
      | some (field, rest) => (fields? levels rest).map (field :: ·)
termination_by input.length
decreasing_by exact length_lt_of_readField? _first

end HeapSampler.Wire
