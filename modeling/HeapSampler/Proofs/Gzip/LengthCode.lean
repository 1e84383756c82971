import HeapSampler.Proofs.Gzip.WordLengths
import HeapSampler.Gzip.LengthCode
import HeapSampler.Gzip.Inflate

/-!
# Code lengths are read back

The parts of a list of lengths spell the list, and the code made for their symbols has a word for
each of them.  So a reader of what stands in front of a block ends up with the block's two codes.
-/

namespace HeapSampler.Gzip

/-! ## Spelling -/

/-- What a part adds to the lengths in front of it, the way a reader goes on from them. -/
inductive LengthPart.Adds : Array Nat → LengthPart → Array Nat → Prop where
  | single {lengths : Array Nat} {length : Nat} (short : length < 16) :
      Adds lengths (.single length) (lengths.push length)
  | again {lengths : Array Nat} {length count : Nat} (last : lengths.back? = some length)
      (bounds : 3 ≤ count ∧ count ≤ 6) :
      Adds lengths (.again count) (lengths ++ List.replicate count length)
  | zeros {lengths : Array Nat} {count : Nat} (bounds : 3 ≤ count ∧ count ≤ 138) :
      Adds lengths (.zeros count) (lengths ++ List.replicate count 0)

namespace LengthPart.Adds

variable {lengths more : Array Nat} {part : LengthPart}

theorem size_lt (adds : part.Adds lengths more) : lengths.size < more.size := by
  cases adds with
  | single => simp
  | again _ bounds =>
      rw [size_appendList, List.length_replicate]
      omega
  | zeros bounds =>
      rw [size_appendList, List.length_replicate]
      omega

theorem symbol_lt (adds : part.Adds lengths more) : part.symbol < 19 := by
  cases adds with
  | single short => exact Nat.lt_trans short (by decide)
  | again => exact Nat.lt_of_sub_eq_succ rfl
  | zeros =>
      rw [symbol]
      split <;> decide

/-- A part whose symbol is read is added. -/
theorem codeLengths?_eq (adds : part.Adds lengths more) {code : Huffman}
    {words : Array (List Bool)} {rest : List Bool}
    (word : ∀ later, code.symbol? (.ofBits (words[part.symbol]?.getD [] ++ later)) =
      some (part.symbol, .ofBits later))
    {total : Nat} (room : lengths.size < total) (steps : Nat) :
    codeLengths? code total (steps + 1) lengths (.ofBits (part.bits words ++ rest)) =
      codeLengths? code total steps more (.ofBits rest) := by
  rw [codeLengths?, if_neg (Nat.ne_of_lt room), if_neg (Nat.lt_asymm room)]
  simp only [LengthPart.bits, List.append_assoc, word, Option.bind_eq_bind, Option.bind_some]
  cases adds with
  | single short => simp only [symbol, short, if_true, extraBits, List.nil_append]
  | @again length count last bounds =>
      simp only [symbol, extraBits, Nat.lt_irrefl, if_false, last, Option.map_some,
        Option.bind_some, Cursor.number?_ofBits (show count - 3 < 2 ^ 2 by omega),
        Nat.add_sub_cancel' bounds.1]
  | @zeros count bounds =>
      rw [symbol, extraBits]
      split
      · simp only [show ¬17 < 16 by decide, if_false, Option.bind_some,
          Cursor.number?_ofBits (show count - 3 < 2 ^ 3 by omega), Nat.add_sub_cancel' bounds.1]
      · simp only [show ¬18 < 16 by decide, if_false, Option.bind_some,
          Cursor.number?_ofBits (show count - 11 < 2 ^ 7 by omega),
          Nat.add_sub_cancel' (show 11 ≤ count by omega)]

end LengthPart.Adds

inductive Spells : Array Nat → List LengthPart → Array Nat → Prop where
  | nil {lengths : Array Nat} : Spells lengths [] lengths
  | cons {lengths middle whole : Array Nat} {part : LengthPart} {parts : List LengthPart}
      (adds : part.Adds lengths middle) (later : Spells middle parts whole) :
      Spells lengths (part :: parts) whole

namespace Spells

variable {lengths middle whole : Array Nat} {parts more : List LengthPart}

theorem append (first : Spells lengths parts middle) (second : Spells middle more whole) :
    Spells lengths (parts ++ more) whole := by
  induction first with
  | nil => exact second
  | cons adds _ ih => exact .cons adds (ih second)

/-- Every part is a length at least. -/
theorem size_add_length_le (spells : Spells lengths parts whole) :
    lengths.size + parts.length ≤ whole.size := by
  induction spells with
  | nil => exact Nat.le_refl _
  | cons adds _ ih =>
      have grown := adds.size_lt
      rw [List.length_cons]
      omega

theorem symbol_lt (spells : Spells lengths parts whole) :
    ∀ part ∈ parts, part.symbol < 19 := by
  induction spells with
  | nil => exact List.forall_mem_nil _
  | cons adds _ ih => exact List.forall_mem_cons.mpr ⟨adds.symbol_lt, ih⟩

/-- Parts whose symbols are read are read as what they spell. -/
theorem codeLengths?_eq {code : Huffman} {words : Array (List Bool)}
    (spells : Spells lengths parts whole)
    (word : ∀ part ∈ parts, ∀ later,
      code.symbol? (.ofBits (words[part.symbol]?.getD [] ++ later)) =
        some (part.symbol, .ofBits later))
    {steps : Nat} (enough : parts.length < steps) (rest : List Bool) :
    codeLengths? code whole.size steps lengths
        (.ofBits (parts.flatMap (LengthPart.bits words) ++ rest)) =
      some (whole.toList, .ofBits rest) := by
  induction spells generalizing steps with
  | nil =>
      cases steps with
      | zero => cases enough
      | succ steps => rw [codeLengths?, if_pos rfl]; rfl
  | cons adds later ih =>
      cases steps with
      | zero => cases enough
      | succ steps =>
          obtain ⟨here, others⟩ := List.forall_mem_cons.mp word
          have room := Nat.lt_of_lt_of_le adds.size_lt
            (Nat.le_trans (Nat.le_add_right _ _) later.size_add_length_le)
          rw [List.flatMap_cons, List.append_assoc, adds.codeLengths?_eq here room]
          exact ih others (Nat.lt_of_succ_lt_succ enough)

end Spells

/-! ## Parts of runs -/

section Parts

variable {lengths : Array Nat} {length : Nat}

theorem back?_append_replicate (last : lengths.back? = some length) (count : Nat) :
    (lengths ++ List.replicate count length).back? = some length := by
  rw [← Array.getLast?_toList] at last ⊢
  cases count with
  | zero => simpa using last
  | succ count => simp [List.getLast?_append, List.getLast?_replicate]

theorem spells_singles (lengths : Array Nat) (short : length < 16) (count : Nat) :
    Spells lengths (List.replicate count (.single length))
      (lengths ++ List.replicate count length) := by
  induction count generalizing lengths with
  | zero => simpa using Spells.nil
  | succ count ih =>
      have later := ih (lengths.push length)
      have same : lengths.push length ++ List.replicate count length =
          lengths ++ List.replicate (count + 1) length := by
        apply Array.toList_inj.mp
        simp [List.replicate_succ]
      rw [same] at later
      exact .cons (.single short) later

theorem spells_zeros (lengths : Array Nat) {counts : List Nat}
    (few : ∀ count ∈ counts, count ≤ 138) :
    Spells lengths (counts.flatMap (LengthPart.ofCount 0 .zeros))
      (lengths ++ List.replicate counts.sum 0) := by
  induction counts generalizing lengths with
  | nil => simpa using Spells.nil
  | cons count counts ih =>
      obtain ⟨here, others⟩ := List.forall_mem_cons.mp few
      rw [List.flatMap_cons, List.sum_cons, List.replicate_add, ← appendList_assoc]
      refine Spells.append ?_ (ih _ others)
      rw [LengthPart.ofCount]
      split
      · exact spells_singles lengths (by decide) count
      · exact .cons (.zeros (by omega)) .nil

theorem spells_again (short : length < 16) (last : lengths.back? = some length)
    {counts : List Nat} (few : ∀ count ∈ counts, count ≤ 6) :
    Spells lengths (counts.flatMap (LengthPart.ofCount length .again))
      (lengths ++ List.replicate counts.sum length) := by
  induction counts generalizing lengths with
  | nil => simpa using Spells.nil
  | cons count counts ih =>
      obtain ⟨here, others⟩ := List.forall_mem_cons.mp few
      rw [List.flatMap_cons, List.sum_cons, List.replicate_add, ← appendList_assoc]
      refine Spells.append ?_ (ih (back?_append_replicate last count) others)
      rw [LengthPart.ofCount]
      split
      · exact spells_singles lengths short count
      · exact .cons (.again last (by omega)) .nil

theorem sum_cutCount (most count : Nat) : (LengthPart.cutCount most count).sum = count := by
  rw [LengthPart.cutCount, List.sum_append, List.sum_replicate, List.sum_singleton, smul_eq_mul,
    Nat.div_add_mod']

theorem le_of_mem_cutCount {most : Nat} (positive : 0 < most) (count : Nat) :
    ∀ part ∈ LengthPart.cutCount most count, part ≤ most := by
  intro part member
  rcases List.mem_append.mp member with whole | left
  · exact (List.eq_of_mem_replicate whole).le
  · rw [List.mem_singleton.mp left]
    exact (Nat.mod_lt _ positive).le

theorem spells_ofRun (lengths : Array Nat) (short : length < 16) (count : Nat) :
    Spells lengths (LengthPart.ofRun (List.replicate count length))
      (lengths ++ List.replicate count length) := by
  cases count with
  | zero => simpa [LengthPart.ofRun] using Spells.nil
  | succ count =>
      rw [List.replicate_succ]
      cases length with
      | zero =>
          have few := le_of_mem_cutCount (show 0 < 138 by decide) (count + 1)
          have spelled := spells_zeros lengths few
          rw [sum_cutCount, List.replicate_succ] at spelled
          rwa [LengthPart.ofRun, List.length_replicate]
      | succ length =>
          have last : (lengths.push (length + 1)).back? = some (length + 1) := Array.back?_push
          have few := le_of_mem_cutCount (show 0 < 6 by decide) count
          have spelled := spells_again short last few
          have same : lengths.push (length + 1) ++ List.replicate count (length + 1) =
              lengths ++ (length + 1) :: List.replicate count (length + 1) := by
            apply Array.toList_inj.mp
            simp
          rw [sum_cutCount, same] at spelled
          rw [LengthPart.ofRun, List.length_replicate]
          · exact .cons (.single short) spelled
          · exact fun impossible => Nat.succ_ne_zero length impossible

theorem exists_replicate_of_mem_splitBy {list run : List Nat}
    (member : run ∈ list.splitBy (· == ·)) :
    ∃ length count, length ∈ list ∧ run = List.replicate (count + 1) length := by
  have same : run.IsChain (· = ·) := by simpa using List.isChain_of_mem_splitBy member
  cases run with
  | nil => exact absurd member (List.nil_notMem_splitBy _ _)
  | cons first rest =>
      refine ⟨first, rest.length, ?_, List.isChain_eq_iff_eq_replicate.mp same first rfl⟩
      rw [← List.flatten_splitBy (· == ·) list]
      exact List.mem_flatten.mpr ⟨_, member, List.mem_cons_self⟩

/-- The parts of a list of lengths spell the list. -/
theorem spells_ofLengths {list : List Nat} (short : ∀ length ∈ list, length < 16) :
    Spells #[] (LengthPart.ofLengths list) list.toArray := by
  have each (lengths : Array Nat) (runs : List (List Nat))
      (alike : ∀ run ∈ runs, ∃ count length, length < 16 ∧ run = List.replicate count length) :
      Spells lengths (runs.flatMap LengthPart.ofRun) (lengths ++ runs.flatten) := by
    induction runs generalizing lengths with
    | nil => simpa using Spells.nil
    | cons run runs ih =>
        obtain ⟨here, others⟩ := List.forall_mem_cons.mp alike
        obtain ⟨count, length, bounded, rfl⟩ := here
        rw [List.flatMap_cons, List.flatten_cons, ← appendList_assoc]
        exact (spells_ofRun lengths bounded count).append (ih _ others)
  have spelled := each #[] (list.splitBy (· == ·)) fun run member => by
    obtain ⟨length, count, listed, rfl⟩ := exists_replicate_of_mem_splitBy member
    exact ⟨count + 1, length, short length listed, rfl⟩
  rw [List.flatten_splitBy] at spelled
  simpa [LengthPart.ofLengths] using spelled

/-- Every length of a list has a part, be it by itself or among zeros. -/
theorem exists_part {list : List Nat} (listed : length ∈ list) :
    ∃ part ∈ LengthPart.ofLengths list,
      part.symbol = length ∨ length = 0 ∧ 16 < part.symbol := by
  rw [← List.flatten_splitBy (· == ·) list] at listed
  obtain ⟨run, member, inside⟩ := List.mem_flatten.mp listed
  obtain ⟨own, count, -, rfl⟩ := exists_replicate_of_mem_splitBy member
  cases List.eq_of_mem_replicate inside
  suffices found : ∃ part ∈ LengthPart.ofRun (List.replicate (count + 1) length),
      part.symbol = length ∨ length = 0 ∧ 16 < part.symbol by
    obtain ⟨part, part_listed, about⟩ := found
    exact ⟨part, List.mem_flatMap.mpr ⟨_, member, part_listed⟩, about⟩
  rw [List.replicate_succ]
  cases length with
  | succ length => exact ⟨_, List.mem_cons_self, .inl rfl⟩
  | zero =>
      obtain ⟨zeros, listed', positive⟩ : ∃ zeros ∈ LengthPart.cutCount 138 (count + 1),
          0 < zeros := by
        by_contra none_left
        push Not at none_left
        have empty := List.sum_eq_zero fun zeros listed' =>
          Nat.le_zero.mp (none_left zeros listed')
        rw [sum_cutCount] at empty
        omega
      rw [LengthPart.ofRun, List.length_replicate]
      by_cases few : zeros < 3
      · refine ⟨.single 0, List.mem_flatMap.mpr ⟨zeros, listed', ?_⟩, .inl rfl⟩
        rw [LengthPart.ofCount, if_pos few]
        exact List.mem_replicate.mpr ⟨by omega, rfl⟩
      · refine ⟨.zeros zeros, List.mem_flatMap.mpr ⟨zeros, listed', ?_⟩, .inr ⟨rfl, ?_⟩⟩
        · rw [LengthPart.ofCount, if_neg few]
          exact List.mem_singleton_self _
        · rw [LengthPart.symbol]
          split <;> decide

/-- A list that is long enough and has a word in it takes two symbols or more. -/
theorem exists_symbols {list : List Nat} (short : ∀ length ∈ list, length < 16)
    (long : 7 ≤ list.length) (listed : length ∈ list) (positive : 0 < length) :
    ∃ first ∈ LengthPart.ofLengths list, ∃ second ∈ LengthPart.ofLengths list,
      first.symbol ≠ second.symbol := by
  by_contra alike
  push Not at alike
  have bounded := short length listed
  obtain ⟨part, part_listed, about⟩ := exists_part listed
  have one_length (other : Nat) (other_listed : other ∈ list) : other = length := by
    obtain ⟨part', part'_listed, about'⟩ := exists_part other_listed
    have same := alike part part_listed part' part'_listed
    omega
  -- then the list is a single run, in which the length is followed by its repetition
  have list_eq : list = List.replicate list.length length := List.eq_replicate_of_mem one_length
  obtain ⟨rest, rest_eq⟩ := Nat.exists_eq_add_of_le' long
  obtain ⟨before, rfl⟩ := Nat.exists_eq_add_of_le' positive
  have runs : list.splitBy (· == ·) = [list] := by
    apply List.splitBy_of_isChain
    · exact List.ne_nil_of_mem listed
    · rw [list_eq]
      simpa using List.isChain_replicate_of_rel _ rfl
  have again_listed : LengthPart.again 6 ∈ LengthPart.ofLengths list := by
    rw [LengthPart.ofLengths, runs, List.flatMap_singleton, list_eq, rest_eq, List.replicate_succ,
      LengthPart.ofRun, List.length_replicate]
    · refine List.mem_cons_of_mem _ (List.mem_flatMap.mpr ⟨6, ?_, by simp [LengthPart.ofCount]⟩)
      rw [LengthPart.cutCount]
      exact List.mem_append_left _ (List.mem_replicate.mpr ⟨by omega, rfl⟩)
    · exact Nat.succ_ne_zero before
  have same := alike part part_listed _ again_listed
  rw [LengthPart.symbol] at same
  omega

end Parts

/-! ## Zeros at the end -/

section LastZeros

variable {least : Nat} {numbers : List Nat}

theorem exists_zeros (least : Nat) (numbers : List Nat) :
    ∃ count, numbers = withoutLastZeros least numbers ++ List.replicate count 0 := by
  have parted : numbers = (numbers.reverse.dropWhile (· = 0)).reverse ++
      (numbers.reverse.takeWhile (· = 0)).reverse := by
    rw [← List.reverse_append, List.takeWhile_append_dropWhile, List.reverse_reverse]
  rw [withoutLastZeros]
  generalize numbers.reverse.dropWhile (· = 0) = kept at parted ⊢
  have zeros : ∀ number ∈ numbers.drop (max least kept.length), number = 0 := by
    intro number member
    have beyond : number ∈ numbers.drop kept.length := by
      rw [← Nat.add_sub_cancel' (Nat.le_max_right least kept.length), ← List.drop_drop] at member
      exact List.mem_of_mem_drop member
    rw [parted, ← List.length_reverse, List.drop_left, List.mem_reverse] at beyond
    simpa using List.mem_takeWhile_imp beyond
  refine ⟨(numbers.drop (max least kept.length)).length, ?_⟩
  rw [← List.eq_replicate_of_mem zeros, List.take_append_drop]

theorem length_withoutLastZeros {most : Nat} (enough : least ≤ numbers.length)
    (few : numbers.length ≤ most) :
    least ≤ (withoutLastZeros least numbers).length ∧
      (withoutLastZeros least numbers).length ≤ most := by
  rw [withoutLastZeros, List.length_take]
  omega

theorem mem_of_mem_withoutLastZeros {number : Nat}
    (member : number ∈ withoutLastZeros least numbers) : number ∈ numbers :=
  List.mem_of_mem_take member

theorem mem_withoutLastZeros {number : Nat} (member : number ∈ numbers) (positive : 0 < number) :
    number ∈ withoutLastZeros least numbers := by
  obtain ⟨count, padded⟩ := exists_zeros least numbers
  rw [padded] at member
  rcases List.mem_append.mp member with kept | zero
  · exact kept
  · rw [List.eq_of_mem_replicate zero] at positive
    cases positive

theorem ofLengths_withoutLastZeros (least : Nat) (lengths : List Nat) :
    Huffman.ofLengths (withoutLastZeros least lengths) = Huffman.ofLengths lengths := by
  obtain ⟨count, padded⟩ := exists_zeros least lengths
  conv_rhs => rw [padded]
  exact (Huffman.ofLengths_append_zeros _ count).symm

end LastZeros

/-! ## Occurrences -/

theorem size_countAll (symbols : List Nat) (counts : Array Nat) :
    (symbols.foldl (fun counts symbol => counts.modify symbol (· + 1)) counts).size =
      counts.size := by
  induction symbols generalizing counts with
  | nil => rfl
  | cons symbol symbols ih => rw [List.foldl_cons, ih, Array.size_modify]

theorem length_occurrences (count : Nat) (symbols : List Nat) :
    (occurrences count symbols).length = count := by
  rw [occurrences, Array.length_toList, size_countAll, Array.size_replicate]

theorem getElem?_countAll (symbols : List Nat) (counts : Array Nat) (symbol : Nat) :
    (symbols.foldl (fun counts symbol => counts.modify symbol (· + 1)) counts)[symbol]? =
      counts[symbol]?.map (· + symbols.count symbol) := by
  induction symbols generalizing counts with
  | nil => simp
  | cons other symbols ih =>
      rw [List.foldl_cons, ih, Array.getElem?_modify, List.count_cons]
      by_cases same : other = symbol
      · simp [same, Function.comp_def, Nat.add_comm, Nat.add_left_comm]
      · simp [same]

theorem getElem?_occurrences {count symbol : Nat} (inside : symbol < count)
    (symbols : List Nat) : (occurrences count symbols)[symbol]? = some (symbols.count symbol) := by
  rw [occurrences, Array.getElem?_toList, getElem?_countAll, Array.getElem?_replicate,
    if_pos inside, Option.map_some, Nat.zero_add]

theorem two_le_occurring {symbols : List Nat} {count first second : Nat}
    (inside : ∀ symbol ∈ symbols, symbol < count) (first_listed : first ∈ symbols)
    (second_listed : second ∈ symbols) (apart : first ≠ second) :
    2 ≤ occurring (occurrences count symbols) := by
  have weighed {symbol : Nat} (listed : symbol ∈ symbols) :
      (symbols.count symbol, symbol) ∈ byWeight (occurrences count symbols) :=
    mem_byWeight.mpr
      ⟨getElem?_occurrences (inside symbol listed) symbols, List.count_pos_iff.mpr listed⟩
  have first_weighed := weighed first_listed
  have second_weighed := weighed second_listed
  rw [← length_byWeight]
  match byWeight (occurrences count symbols), first_weighed, second_weighed with
  | [_], first_weighed, second_weighed =>
      rw [List.mem_singleton] at first_weighed second_weighed
      exact absurd (congrArg Prod.snd (first_weighed.trans second_weighed.symm)) apart
  | _ :: _ :: rest, _, _ => exact Nat.le_add_left 2 rest.length

/-! ## The code of the parts -/

theorem shortNumbers?_eq {numbers : List Nat} (small : ∀ number ∈ numbers, number < 8)
    (rest : List Bool) :
    shortNumbers? numbers.length (.ofBits (numbers.flatMap (bitsOfNat 3) ++ rest)) =
      some (numbers, .ofBits rest) := by
  induction numbers with
  | nil => rfl
  | cons number numbers ih =>
      obtain ⟨here, others⟩ := List.forall_mem_cons.mp small
      rw [List.length_cons, shortNumbers?, List.flatMap_cons, List.append_assoc,
        Cursor.number?_ofBits (show number < 2 ^ 3 from here)]
      simp only [Option.bind_eq_bind, Option.bind_some, ih others]
      rfl

/-- Values that are sent in some order, but for zeros at the end, are found by their keys. -/
theorem find?_zip_eq {order values : List Nat} {own : Nat → Nat} {count key : Nat}
    (padded : order.map own = values ++ List.replicate count 0) (listed : key ∈ order) :
    (((order.zip values).find? (·.1 = key)).map Prod.snd).getD 0 = own key := by
  induction order generalizing values with
  | nil => cases listed
  | cons first order ih =>
      cases values with
      | nil =>
          have zero : own key ∈ List.replicate count 0 := by
            rw [← List.nil_append (List.replicate count 0), ← padded]
            exact List.mem_map_of_mem listed
          rw [List.eq_of_mem_replicate zero]
          rfl
      | cons value values =>
          obtain ⟨same, later⟩ := List.cons.inj padded
          rw [List.zip_cons_cons, List.find?_cons]
          by_cases here : first = key
          · simp [here, ← same]
          · simp only [here, decide_false]
            exact ih later ((List.mem_cons.mp listed).resolve_left (Ne.symm here))

section SendingOrder

variable {own : List Nat}

/-- Lengths that are sent in an order of their own are put back in place. -/
theorem inPlace_inSendingOrder (length_eq : own.length = 19) :
    inPlace (inSendingOrder own) = own := by
  obtain ⟨count, padded⟩ :=
    exists_zeros 4 (lengthCodeOrder.map fun symbol => own[symbol]?.getD 0)
  have ordered : ∀ symbol < 19, symbol ∈ lengthCodeOrder := by decide
  apply List.ext_getElem
  · simp [inPlace, length_eq]
  · intro symbol inside within
    simp only [inPlace, List.length_map, List.length_range] at inside
    simp only [inPlace, inSendingOrder, List.getElem_map, List.getElem_range]
    rw [find?_zip_eq padded (ordered symbol inside), List.getElem?_eq_getElem within,
      Option.getD_some]

theorem length_inSendingOrder (own : List Nat) :
    4 ≤ (inSendingOrder own).length ∧ (inSendingOrder own).length ≤ 19 := by
  have length_eq : (lengthCodeOrder.map fun symbol => own[symbol]?.getD 0).length = 19 := by
    rw [List.length_map]
    rfl
  exact length_withoutLastZeros (by omega) length_eq.le

theorem lt_of_mem_inSendingOrder (small : ∀ length ∈ own, length ≤ 7) :
    ∀ number ∈ inSendingOrder own, number < 8 := by
  intro number member
  obtain ⟨symbol, -, rfl⟩ := List.mem_map.mp (mem_of_mem_withoutLastZeros member)
  cases found : own[symbol]? with
  | none => decide
  | some length => exact Nat.lt_succ_of_le (small length (List.mem_of_getElem? found))

end SendingOrder

section PartCode

variable {list : List Nat}

theorem suits_partCode (parts : List LengthPart) :
    Suits 7 (occurrences 19 (parts.map LengthPart.symbol))
      (wordLengths 7 (occurrences 19 (parts.map LengthPart.symbol))) :=
  suits_wordLengths (by decide) (by rw [length_occurrences]; decide)

theorem symbol_ofLengths_lt (short : ∀ length ∈ list, length < 16) :
    ∀ symbol ∈ (LengthPart.ofLengths list).map LengthPart.symbol, symbol < 19 :=
  List.forall_mem_map.mpr (spells_ofLengths short).symbol_lt

theorem isComplete_partCode {length : Nat} (short : ∀ length ∈ list, length < 16)
    (long : 7 ≤ list.length) (listed : length ∈ list) (positive : 0 < length) :
    (Huffman.ofLengths (wordLengths 7
      (occurrences 19 ((LengthPart.ofLengths list).map LengthPart.symbol)))).isComplete = true := by
  obtain ⟨first, first_listed, second, second_listed, apart⟩ :=
    exists_symbols short long listed positive
  exact (suits_partCode _).isComplete (by decide)
    (two_le_occurring (symbol_ofLengths_lt short) (List.mem_map_of_mem first_listed)
      (List.mem_map_of_mem second_listed) apart)

theorem codeLengths?_partCode (short : ∀ length ∈ list, length < 16) (rest : List Bool) :
    let parts := LengthPart.ofLengths list
    let own := wordLengths 7 (occurrences 19 (parts.map LengthPart.symbol))
    codeLengths? (Huffman.ofLengths own) list.length (list.length + 1) #[]
        (.ofBits (parts.flatMap (LengthPart.bits (Huffman.words own)) ++ rest)) =
      some (list, .ofBits rest) := by
  intro parts own
  have suits : Suits 7 _ own := suits_partCode parts
  have spells : Spells #[] parts list.toArray := spells_ofLengths short
  have few : parts.length ≤ list.length := by simpa using spells.size_add_length_le
  refine spells.codeLengths?_eq (fun part member rest => ?_) (Nat.lt_succ_of_le few) rest
  have weighed := getElem?_occurrences (spells.symbol_lt part member) (parts.map LengthPart.symbol)
  obtain ⟨length, present⟩ :=
    suits.given weighed (List.count_pos_iff.mpr (List.mem_map_of_mem member))
  exact Huffman.symbol?_words (suits.fits (by decide)) present rest

/-- The lengths of two codes that a reader may use are read back. -/
theorem readCodes?_bitsOfLengths {literalLengths distanceLengths : List Nat}
    (literal_bounds : 257 ≤ literalLengths.length ∧ literalLengths.length ≤ 286)
    (distance_bounds : 1 ≤ distanceLengths.length ∧ distanceLengths.length ≤ 30)
    (short : ∀ length ∈ literalLengths ++ distanceLengths, length < 16)
    (some_word : ∃ length ∈ literalLengths, 0 < length)
    (literals_usable : (Huffman.ofLengths literalLengths).isUsable = true)
    (distances_usable : (Huffman.ofLengths distanceLengths).isUsable = true) (rest : List Bool) :
    readCodes? (.ofBits (bitsOfLengths literalLengths distanceLengths ++ rest)) =
      some ((Huffman.ofLengths literalLengths, Huffman.ofLengths distanceLengths),
        .ofBits rest) := by
  obtain ⟨length, listed, positive⟩ := some_word
  have complete := isComplete_partCode short (by rw [List.length_append]; omega)
    (List.mem_append_left _ listed) positive
  have read := codeLengths?_partCode short rest
  have suits := suits_partCode (LengthPart.ofLengths (literalLengths ++ distanceLengths))
  rw [bitsOfLengths]
  dsimp only at read ⊢
  generalize LengthPart.ofLengths (literalLengths ++ distanceLengths) = parts at *
  have own_count := suits.length_eq
  rw [length_occurrences] at own_count
  have own_short := suits.le_limit
  generalize wordLengths 7 (occurrences 19 (parts.map LengthPart.symbol)) = own at *
  have placed := inPlace_inSendingOrder own_count
  have sent := length_inSendingOrder own
  have numbers := shortNumbers?_eq (lt_of_mem_inSendingOrder own_short)
    (parts.flatMap (LengthPart.bits (Huffman.words own)) ++ rest)
  simp only [readCodes?, List.append_assoc, Option.bind_eq_bind, Option.bind_some,
    Cursor.number?_ofBits (show literalLengths.length - 257 < 2 ^ 5 by omega),
    Cursor.number?_ofBits (show distanceLengths.length - 1 < 2 ^ 5 by omega),
    Cursor.number?_ofBits (show (inSendingOrder own).length - 4 < 2 ^ 4 by omega),
    Nat.sub_add_cancel literal_bounds.1, Nat.sub_add_cancel distance_bounds.1,
    Nat.sub_add_cancel sent.1, numbers, placed, complete]
  rw [List.length_append] at read
  rw [if_neg (by omega), read]
  simp [literals_usable, distances_usable]

end PartCode

/-- What stands in front of a block is read as its two codes. -/
theorem readCodes?_lengthBits
    {literalWeights distanceWeights literalLengths distanceLengths : List Nat}
    (literals : Suits 15 literalWeights literalLengths)
    (literal_count : literalWeights.length = 286)
    (distances : Suits 15 distanceWeights distanceLengths)
    (distance_count : distanceWeights.length = 30)
    (some_word : ∃ length ∈ literalLengths, 0 < length) (rest : List Bool) :
    readCodes? (.ofBits (lengthBits literalLengths distanceLengths ++ rest)) =
      some ((Huffman.ofLengths literalLengths, Huffman.ofLengths distanceLengths),
        .ofBits rest) := by
  obtain ⟨length, listed, positive⟩ := some_word
  have short : ∀ length ∈ withoutLastZeros 257 literalLengths ++
      withoutLastZeros 1 distanceLengths, length < 16 := by
    intro length member
    apply Nat.lt_succ_of_le
    rcases List.mem_append.mp member with literal | distance
    · exact literals.le_limit length (mem_of_mem_withoutLastZeros literal)
    · exact distances.le_limit length (mem_of_mem_withoutLastZeros distance)
  have literal_length := literals.length_eq.trans literal_count
  have distance_length := distances.length_eq.trans distance_count
  have literals_usable := literals.isUsable (by decide)
  have distances_usable := distances.isUsable (by decide)
  rw [← ofLengths_withoutLastZeros 257 literalLengths] at literals_usable ⊢
  rw [← ofLengths_withoutLastZeros 1 distanceLengths] at distances_usable ⊢
  exact readCodes?_bitsOfLengths
    (length_withoutLastZeros (by omega) literal_length.le)
    (length_withoutLastZeros (by omega) distance_length.le) short
    ⟨length, mem_withoutLastZeros listed positive, positive⟩ literals_usable distances_usable rest

end HeapSampler.Gzip
