import HeapSampler.Proofs.Gzip.Huffman
import HeapSampler.Gzip.WordLengths

/-!
# Chosen lengths make a code

A tree has room for as many words as it has leaves, and none to spare.  Cutting long words to the
limit takes more room than there is, and each step that frees a place takes back one place, until
the room is right again.  So the lengths that are chosen fit, and unless there are fewer than two
symbols they leave nothing unused.
-/

namespace HeapSampler.Gzip

/-! ## Trees -/

/-- The part of all words that begin with one of the counted words, whose lengths start at zero. -/
def kraft : List Nat → ℚ
  | [] => 0
  | count :: counts => count + kraft counts / 2

namespace Subtree

theorem kraft_sumLists (first second : List Nat) :
    kraft (sumLists first second) = kraft first + kraft second := by
  fun_induction sumLists first second with
  | case1 => simp [kraft]
  | case2 => simp [kraft]
  | case3 x xs y ys ih =>
      simp only [kraft, ih, Nat.cast_add]
      ring

theorem sum_sumLists (first second : List Nat) :
    (sumLists first second).sum = first.sum + second.sum := by
  fun_induction sumLists first second with
  | case1 => simp
  | case2 => simp
  | case3 x xs y ys ih =>
      simp only [List.sum_cons, ih]
      omega

/-- The leaves of a tree leave no room. -/
def IsFull (tree : Subtree) : Prop :=
  kraft tree.leaves = 1

theorem isFull_leaf (weight : Nat) : (leaf weight).IsFull := by
  simp [IsFull, leaf, kraft]

theorem IsFull.join {first second : Subtree} (first_full : first.IsFull)
    (second_full : second.IsFull) : (first.join second).IsFull := by
  rw [IsFull] at first_full second_full
  rw [IsFull, Subtree.join, kraft, kraft_sumLists, first_full, second_full]
  norm_num

theorem sum_join (first second : Subtree) :
    (first.join second).leaves.sum = first.leaves.sum + second.leaves.sum := by
  simp [Subtree.join, sum_sumLists]

theorem perm_of_lightest? {leaves joined leaves' joined' : List Subtree} {tree : Subtree}
    (found : lightest? leaves joined = some (tree, leaves', joined')) :
    (leaves ++ joined).Perm (tree :: (leaves' ++ joined')) := by
  fun_cases lightest? leaves joined with
  | case1 leaf leaves first rest lighter =>
      simp only [lightest?, if_pos lighter] at found
      cases found
      exact List.perm_middle
  | case2 leaf leaves first rest heavier =>
      simp only [lightest?, if_neg heavier] at found
      cases found
      rfl
  | case3 leaf leaves =>
      cases found
      rfl
  | case4 first rest =>
      cases found
      rfl
  | case5 => cases found

theorem lightest?_eq_none {leaves joined : List Subtree}
    (none_left : lightest? leaves joined = none) : leaves ++ joined = [] := by
  fun_cases lightest? leaves joined with
  | case1 leaf leaves first rest lighter => simp [lightest?, lighter] at none_left
  | case2 leaf leaves first rest heavier => simp [lightest?, heavier] at none_left
  | case3 => cases none_left
  | case4 => cases none_left
  | case5 => rfl

/-- Full trees are joined to one full tree with all their leaves. -/
theorem exists_joinAll {steps : Nat} {leaves joined : List Subtree}
    (full : ∀ tree ∈ leaves ++ joined, tree.IsFull) (some_left : leaves ++ joined ≠ [])
    (enough : (leaves ++ joined).length ≤ steps + 1) :
    ∃ tree, joinAll steps leaves joined = [tree] ∧ tree.IsFull ∧
      tree.leaves.sum = ((leaves ++ joined).map fun tree => tree.leaves.sum).sum := by
  induction steps generalizing leaves joined with
  | zero =>
      obtain ⟨tree, single⟩ := List.length_eq_one_iff.mp
        (Nat.le_antisymm enough (List.length_pos_iff.mpr some_left))
      exact ⟨tree, single, full tree (single ▸ List.mem_singleton_self tree), by simp [single]⟩
  | succ steps ih =>
      rw [joinAll]
      cases first_found : lightest? leaves joined with
      | none => exact absurd (lightest?_eq_none first_found) some_left
      | some found =>
          obtain ⟨first, leaves', joined'⟩ := found
          have first_perm := perm_of_lightest? first_found
          have first_full := full first (first_perm.mem_iff.mpr List.mem_cons_self)
          dsimp only
          cases second_found : lightest? leaves' joined' with
          | none =>
              have last := lightest?_eq_none second_found
              rw [last] at first_perm
              have sum_eq := (first_perm.map fun tree : Subtree => tree.leaves.sum).sum_eq
              exact ⟨first, rfl, first_full, by rw [sum_eq, List.map_singleton, List.sum_singleton]⟩
          | some found =>
              obtain ⟨second, leaves'', joined''⟩ := found
              have perm := first_perm.trans ((perm_of_lightest? second_found).cons first)
              dsimp only
              have second_full := full second (perm.mem_iff.mpr (by simp))
              have same : (leaves'' ++ (joined'' ++ [first.join second])).Perm
                  (first.join second :: (leaves'' ++ joined'')) := by
                rw [← List.append_assoc]
                exact List.perm_append_singleton _ _
              have length_eq := perm.length_eq
              have still_full :
                  ∀ tree ∈ leaves'' ++ (joined'' ++ [first.join second]), tree.IsFull := by
                intro tree member
                rcases List.mem_cons.mp (same.mem_iff.mp member) with rfl | other
                · exact first_full.join second_full
                · exact full tree (perm.mem_iff.mpr (by simp [List.mem_append.mp other]))
              have fewer : (leaves'' ++ (joined'' ++ [first.join second])).length ≤ steps + 1 := by
                rw [same.length_eq, List.length_cons]
                simp only [List.length_cons] at length_eq
                omega
              obtain ⟨tree, tree_eq, tree_full, sum_eq⟩ := ih still_full (by simp) fewer
              refine ⟨tree, tree_eq, tree_full, ?_⟩
              rw [sum_eq, (same.map _).sum_eq, (perm.map _).sum_eq]
              simp [sum_join, Nat.add_assoc]

end Subtree

theorem kraft_nonneg (counts : List Nat) : 0 ≤ kraft counts := by
  induction counts with
  | nil => rfl
  | cons count counts ih =>
      rw [kraft]
      positivity

theorem kraft_pos {counts : List Nat} (some_counted : 0 < counts.sum) : 0 < kraft counts := by
  induction counts with
  | nil => cases some_counted
  | cons count counts ih =>
      have below := kraft_nonneg counts
      rw [List.sum_cons] at some_counted
      rw [kraft]
      rcases Nat.eq_zero_or_pos count with rfl | here
      · have := ih (by omega)
        positivity
      · have : (0 : ℚ) < count := by exact_mod_cast here
        positivity

/-- Of two symbols or more each has a word of one bit at least, and the words leave no room. -/
theorem depthCounts_of_two_le {weights : List Nat} (several : 2 ≤ weights.length) :
    (depthCounts weights).sum = weights.length ∧ kraft (depthCounts weights) = 2 := by
  have some_left : weights.map Subtree.leaf ++ [] ≠ [] := by
    simp [← List.length_pos_iff]
    omega
  have leaves_full : ∀ tree ∈ weights.map Subtree.leaf ++ [], tree.IsFull := by
    intro tree member
    obtain ⟨weight, -, rfl⟩ := List.mem_map.mp (by simpa using member)
    exact Subtree.isFull_leaf weight
  have few : (weights.map Subtree.leaf ++ []).length ≤ weights.length + 1 := by simp
  obtain ⟨tree, tree_eq, full, sum_eq⟩ := Subtree.exists_joinAll leaves_full some_left few
  have counted : tree.leaves.sum = weights.length := by
    simpa [Subtree.leaf, Function.comp_def] using sum_eq
  rw [depthCounts, tree_eq]
  dsimp only
  rw [if_neg (by omega)]
  rw [Subtree.IsFull] at full
  cases leaves_eq : tree.leaves with
  | nil => simp [leaves_eq] at counted; omega
  | cons root below =>
      rw [leaves_eq, List.sum_cons] at counted
      rw [leaves_eq, kraft] at full
      have above := kraft_nonneg below
      -- a root that is a leaf would leave nothing for the other symbols
      have inner : root = 0 := by
        by_contra outer
        have counted_below : 0 < below.sum ∨ 2 ≤ root := by omega
        have one_le : (1 : ℚ) ≤ root := by exact_mod_cast Nat.one_le_iff_ne_zero.mpr outer
        rcases counted_below with below_pos | two_le
        · have := kraft_pos below_pos
          linarith
        · have : (2 : ℚ) ≤ root := by exact_mod_cast two_le
          linarith
      rw [inner] at counted full
      rw [List.drop_one, List.tail_cons]
      exact ⟨by omega, by push_cast at full; linarith⟩

/-! ## Cutting to the limit -/

theorem kraft_append (counts more : List Nat) :
    kraft (counts ++ more) = kraft counts + kraft more / 2 ^ counts.length := by
  induction counts with
  | nil => simp [kraft]
  | cons count counts ih =>
      rw [List.cons_append, kraft, ih, kraft, List.length_cons]
      ring

theorem two_mul_placesTaken_reverse (counts : List Nat) :
    2 * (placesTaken counts.reverse : ℚ) = 2 ^ counts.length * kraft counts := by
  induction counts using List.reverseRecOn with
  | nil => simp [placesTaken, kraft]
  | append_singleton counts count ih =>
      rw [List.reverse_append, List.reverse_singleton, List.singleton_append, placesTaken,
        kraft_append, List.length_append, List.length_singleton, kraft, kraft]
      push_cast
      rw [mul_add, ← mul_assoc, mul_comm 2 2, mul_assoc, ih, pow_succ]
      field_simp
      ring

theorem kraft_le_sum (counts : List Nat) : kraft counts ≤ counts.sum := by
  induction counts with
  | nil => simp [kraft]
  | cons count counts ih =>
      have below := kraft_nonneg counts
      rw [kraft, List.sum_cons, Nat.cast_add]
      linarith

theorem kraft_zeros (count : Nat) : kraft (List.replicate count 0) = 0 := by
  induction count with
  | zero => rfl
  | succ count ih => simp [List.replicate_succ, kraft, ih]

/-- What is true of counts while places are freed. -/
structure Roomy (limit total : Nat) (counts : List Nat) : Prop where
  length_eq : counts.length = limit
  sum_eq : counts.sum = total
  /-- All words but the longest ones have room. -/
  shorter_le : 2 * placesTaken counts.tail ≤ 2 ^ limit

theorem exists_lend (above : Nat) {shorter : List Nat} (some_left : 0 < shorter.sum) :
    ∃ first others, lend above shorter = first :: others ∧ above ≤ first ∧
      others.length = shorter.length ∧ first + others.sum = above + shorter.sum + 1 ∧
      first + 2 * placesTaken others = above + 2 * placesTaken shorter := by
  induction shorter generalizing above with
  | nil => cases some_left
  | cons count shorter ih =>
      cases count with
      | zero =>
          obtain ⟨first, others, lent, -, length_eq, sum_eq, places_eq⟩ :=
            ih 0 (by simpa using some_left)
          refine ⟨above, lend 0 shorter, rfl, Nat.le_refl _, ?_, ?_, ?_⟩
          · rw [lent, List.length_cons, List.length_cons, length_eq]
          · rw [lent, List.sum_cons, List.sum_cons]
            omega
          · rw [lent, placesTaken, placesTaken]
            omega
      | succ count =>
          refine ⟨above + 2, count :: shorter, rfl, Nat.le_add_right _ _, rfl, ?_, ?_⟩
          · rw [List.sum_cons, List.sum_cons]
            omega
          · rw [placesTaken, placesTaken]
            omega

theorem placesTaken_eq_zero {counts : List Nat} (none_counted : counts.sum = 0) :
    placesTaken counts = 0 := by
  induction counts with
  | nil => rfl
  | cons count counts ih =>
      rw [List.sum_cons] at none_counted
      rw [placesTaken, ih (by omega)]
      omega

/-- Where more places are taken than there are, one is freed. -/
theorem Roomy.freePlace {limit total : Nat} {counts : List Nat} (roomy : Roomy limit total counts)
    (few : total ≤ 2 ^ limit) (crowded : 2 ^ limit < placesTaken counts) :
    Roomy limit total (freePlace counts) ∧
      placesTaken (Gzip.freePlace counts) + 1 = placesTaken counts := by
  cases counts with
  | nil => cases crowded
  | cons longest shorter =>
      obtain ⟨length_eq, sum_eq, shorter_le⟩ := roomy
      rw [List.tail_cons] at shorter_le
      rw [placesTaken] at crowded
      rw [List.sum_cons] at sum_eq
      have some_left : 0 < shorter.sum := by
        by_contra none_left
        have none_shorter := placesTaken_eq_zero (show shorter.sum = 0 by omega)
        omega
      obtain ⟨first, others, lent, above_le, others_length, others_sum, places_eq⟩ :=
        exists_lend (longest - 1) some_left
      rw [Gzip.freePlace, lent]
      refine ⟨⟨?_, ?_, ?_⟩, ?_⟩
      · rw [← length_eq, List.length_cons, List.length_cons, others_length]
      · rw [List.sum_cons]
        omega
      · rw [List.tail_cons]
        omega
      · rw [placesTaken, placesTaken]
        omega

/-- A place is freed again and again until no more are taken than there are. -/
theorem Roomy.repeat {limit total : Nat} {counts : List Nat} (roomy : Roomy limit total counts)
    (few : total ≤ 2 ^ limit) {steps : Nat} (crowded : 2 ^ limit + steps ≤ placesTaken counts) :
    Roomy limit total (Nat.repeat Gzip.freePlace steps counts) ∧
      placesTaken (Nat.repeat Gzip.freePlace steps counts) + steps = placesTaken counts := by
  induction steps with
  | zero => exact ⟨roomy, rfl⟩
  | succ steps ih =>
      obtain ⟨roomy', places_eq⟩ := ih (by omega)
      obtain ⟨freed, freed_eq⟩ := roomy'.freePlace few (by omega)
      exact ⟨freed, by rw [Nat.repeat]; omega⟩

/-! ## Capping -/

section Capped

variable {limit : Nat} {counts : List Nat}

theorem length_shorterWords (limit : Nat) (counts : List Nat) :
    (shorterWords limit counts).length = limit - 1 := by
  simp [shorterWords]
  omega

theorem capped_eq (limit : Nat) (counts : List Nat) :
    capped limit counts =
      (counts.drop (limit - 1)).sum :: (shorterWords limit counts).reverse :=
  rfl

theorem length_capped (positive : 0 < limit) (counts : List Nat) :
    (capped limit counts).length = limit := by
  rw [capped_eq, List.length_cons, List.length_reverse, length_shorterWords]
  omega

theorem sum_shorterWords (limit : Nat) (counts : List Nat) :
    (shorterWords limit counts).sum + (counts.drop (limit - 1)).sum = counts.sum := by
  rw [shorterWords, List.take_append, List.sum_append, List.take_replicate, List.sum_replicate,
    smul_zero, Nat.add_zero, ← List.sum_append, List.take_append_drop]

theorem sum_capped (limit : Nat) (counts : List Nat) : (capped limit counts).sum = counts.sum := by
  rw [capped_eq, List.sum_cons, List.sum_reverse, Nat.add_comm, sum_shorterWords]

theorem kraft_take_le (place : Nat) (counts : List Nat) :
    kraft (counts.take place) ≤ kraft counts := by
  have whole := kraft_append (counts.take place) (counts.drop place)
  rw [List.take_append_drop] at whole
  have left := kraft_nonneg (counts.drop place)
  rw [whole]
  exact le_add_of_nonneg_right (by positivity)

theorem kraft_shorterWords_le (limit : Nat) (counts : List Nat) :
    kraft (shorterWords limit counts) ≤ kraft counts := by
  calc
    kraft (shorterWords limit counts) ≤ kraft (counts ++ List.replicate limit 0) :=
      kraft_take_le _ _
    _ = kraft counts := by rw [kraft_append, kraft_zeros, zero_div, add_zero]

theorem placesTaken_tail_capped (positive : 0 < limit) (room : kraft counts ≤ 2) :
    2 * placesTaken (capped limit counts).tail ≤ 2 ^ limit := by
  have places := two_mul_placesTaken_reverse (shorterWords limit counts)
  have shorter := (kraft_shorterWords_le limit counts).trans room
  rw [length_shorterWords] at places
  have bounded : (2 * placesTaken (shorterWords limit counts).reverse : ℚ) ≤ 2 ^ limit := by
    calc
      (2 * placesTaken (shorterWords limit counts).reverse : ℚ) ≤ 2 ^ (limit - 1) * 2 := by
        rw [places]
        gcongr
      _ = 2 ^ limit := by rw [← pow_succ, Nat.sub_add_cancel positive]
  rw [capped_eq, List.tail_cons]
  exact_mod_cast bounded

/-- Words that are too long take more places when they are cut. -/
theorem le_placesTaken_capped (positive : 0 < limit) (full : kraft counts = 2) :
    2 ^ limit ≤ placesTaken (capped limit counts) := by
  have places := two_mul_placesTaken_reverse (capped limit counts).reverse
  have padded : kraft (counts ++ List.replicate limit 0) = 2 := by
    rw [kraft_append, kraft_zeros, zero_div, add_zero, full]
  have longer : kraft ((counts ++ List.replicate limit 0).drop (limit - 1)) ≤
      (counts.drop (limit - 1)).sum := by
    refine (kraft_le_sum _).trans (le_of_eq ?_)
    rw [List.drop_append, List.sum_append, List.drop_replicate, List.sum_replicate, smul_zero,
      Nat.add_zero]
  have cut : shorterWords limit counts ++ (counts ++ List.replicate limit 0).drop (limit - 1) =
      counts ++ List.replicate limit 0 :=
    List.take_append_drop _ _
  have whole := kraft_append (shorterWords limit counts)
    ((counts ++ List.replicate limit 0).drop (limit - 1))
  rw [cut, padded, length_shorterWords] at whole
  have enough : 2 ≤ kraft (capped limit counts).reverse := by
    calc
      2 = kraft (shorterWords limit counts) +
          kraft ((counts ++ List.replicate limit 0).drop (limit - 1)) / 2 ^ (limit - 1) := whole
      _ ≤ kraft (shorterWords limit counts) +
          (counts.drop (limit - 1)).sum / 2 ^ (limit - 1) := by gcongr
      _ = kraft (capped limit counts).reverse := by
        rw [capped_eq, List.reverse_cons, List.reverse_reverse, kraft_append, length_shorterWords,
          kraft, kraft, zero_div, add_zero]
  rw [List.reverse_reverse, List.length_reverse, length_capped positive] at places
  have bounded : (2 ^ limit * 2 : ℚ) ≤ placesTaken (capped limit counts) * 2 := by
    calc
      (2 ^ limit * 2 : ℚ) ≤ 2 ^ limit * kraft (capped limit counts).reverse := by gcongr
      _ = placesTaken (capped limit counts) * 2 := by rw [← places, mul_comm]
  exact_mod_cast le_of_mul_le_mul_right bounded two_pos

end Capped

/-- The lengths that are chosen, counted from the longest on. -/
structure Chosen (limit total : Nat) (counts : List Nat) : Prop where
  length_eq : counts.length = limit
  sum_eq : counts.sum = total
  places_le : placesTaken counts ≤ 2 ^ limit
  places_eq : 2 ≤ total → placesTaken counts = 2 ^ limit
  single : total = 1 → counts.getLast? = some 1

/-- One symbol has a word of one bit. -/
theorem depthCounts_of_lt_two {weights : List Nat} (few : weights.length < 2) :
    depthCounts weights = List.replicate weights.length 1 := by
  match weights, few with
  | [], _ => rfl
  | [_], _ => rfl

theorem chosen_of_lt_two {limit total : Nat} (several : 1 < limit) (few : total < 2) :
    Chosen limit total (limitedCounts limit (List.replicate total 1)) := by
  have positive : 0 < limit := Nat.lt_of_succ_lt several
  have light : kraft (List.replicate total 1) ≤ 2 := by
    refine (kraft_le_sum _).trans ?_
    rw [List.sum_replicate, smul_eq_mul, Nat.mul_one]
    exact_mod_cast few.le
  have tail := placesTaken_tail_capped positive light
  have none_longest : ((List.replicate total 1).drop (limit - 1)).sum = 0 := by
    rw [List.drop_replicate, List.sum_replicate, smul_eq_mul]
    omega
  have room : placesTaken (capped limit (List.replicate total 1)) ≤ 2 ^ limit := by
    rw [capped_eq, List.tail_cons] at tail
    rw [capped_eq, none_longest, placesTaken]
    omega
  have kept : limitedCounts limit (List.replicate total 1) =
      capped limit (List.replicate total 1) := by
    rw [limitedCounts]
    exact congrArg (fun steps => Nat.repeat freePlace steps (capped limit (List.replicate total 1)))
      (Nat.sub_eq_zero_of_le room)
  rw [kept]
  refine ⟨length_capped positive _, (sum_capped limit _).trans (by simp), room, fun two => ?_,
    fun one => ?_⟩
  · omega
  · subst one
    obtain ⟨shorter, rfl⟩ : ∃ shorter, limit = shorter + 2 := ⟨limit - 2, by omega⟩
    simp [capped, shorterWords, List.getLast?_cons]

theorem chosen_limitedCounts {limit : Nat} {weights : List Nat} (several : 1 < limit)
    (few : weights.length ≤ 2 ^ limit) :
    Chosen limit weights.length (limitedCounts limit (depthCounts weights)) := by
  rcases Nat.lt_or_ge weights.length 2 with lone | many
  · rw [depthCounts_of_lt_two lone]
    exact chosen_of_lt_two several lone
  · have positive : 0 < limit := Nat.lt_of_succ_lt several
    obtain ⟨sum_eq, full⟩ := depthCounts_of_two_le many
    have roomy : Roomy limit weights.length (capped limit (depthCounts weights)) :=
      ⟨length_capped positive _, (sum_capped limit _).trans sum_eq,
        placesTaken_tail_capped positive full.le⟩
    have crowded := le_placesTaken_capped positive full
    obtain ⟨freed, places_eq⟩ := roomy.repeat few (Nat.add_sub_of_le crowded).le
    have left : placesTaken (limitedCounts limit (depthCounts weights)) = 2 ^ limit :=
      Nat.add_right_cancel (places_eq.trans (Nat.add_sub_of_le crowded).symm)
    exact ⟨freed.length_eq, freed.sum_eq, left.le, fun _ => left, fun one => by omega⟩

/-! ## Giving lengths to symbols -/

theorem length_descending (limit : Nat) (counts : List Nat) :
    (descending limit counts).length = counts.sum := by
  induction counts generalizing limit with
  | nil => rfl
  | cons count counts ih => simp [descending, ih]

theorem mem_descending {limit length : Nat} {counts : List Nat} (length_eq : counts.length = limit)
    (member : length ∈ descending limit counts) : 0 < length ∧ length ≤ limit := by
  induction counts generalizing limit with
  | nil => cases member
  | cons count counts ih =>
      subst length_eq
      rcases List.mem_append.mp member with here | later
      · rw [List.eq_of_mem_replicate here, List.length_cons]
        omega
      · have bounds := ih rfl later
        rw [List.length_cons]
        omega

theorem count_descending {limit : Nat} {counts : List Nat} (length_eq : counts.length = limit) :
    (List.range limit).map (fun length => (descending limit counts).count (length + 1)) =
      counts.reverse := by
  induction counts generalizing limit with
  | nil =>
      subst length_eq
      rfl
  | cons count counts ih =>
      subst length_eq
      have beyond : (descending counts.length counts).count (counts.length + 1) = 0 :=
        List.count_eq_zero.mpr fun member => by
          have bounds := mem_descending rfl member
          omega
      rw [List.length_cons, List.range_succ, List.map_append, List.reverse_cons, ← ih rfl]
      congr 1
      · apply List.map_congr_left
        intro length inside
        have below := List.mem_range.mp inside
        rw [descending, List.count_append, List.count_replicate, Nat.add_sub_cancel]
        simp
        omega
      · simp [descending, beyond]

section Assign

variable {values : List Nat} {pairs : List (Nat × Nat)}

@[simp]
theorem length_assign (values : List Nat) (pairs : List (Nat × Nat)) :
    (assign values pairs).length = values.length := by
  induction pairs generalizing values with
  | nil => rfl
  | cons pair pairs ih =>
      rw [assign, List.foldl_cons, ← assign, ih, List.length_set]

theorem getElem?_assign_of_not_mem {place : Nat} (apart : place ∉ pairs.map Prod.fst) :
    (assign values pairs)[place]? = values[place]? := by
  induction pairs generalizing values with
  | nil => rfl
  | cons pair pairs ih =>
      rw [List.map_cons, List.mem_cons, not_or] at apart
      rw [assign, List.foldl_cons, ← assign, ih apart.2, List.getElem?_set_ne (Ne.symm apart.1)]

theorem getElem?_assign_of_mem (distinct : (pairs.map Prod.fst).Nodup) {place value : Nat}
    (inside : place < values.length) (member : (place, value) ∈ pairs) :
    (assign values pairs)[place]? = some value := by
  induction pairs generalizing values with
  | nil => cases member
  | cons pair pairs ih =>
      rw [List.map_cons, List.nodup_cons] at distinct
      rw [assign, List.foldl_cons, ← assign]
      rcases List.mem_cons.mp member with rfl | later
      · rw [getElem?_assign_of_not_mem distinct.1, List.getElem?_set_self inside]
      · exact ih distinct.2 (by rwa [List.length_set]) later

theorem count_assign (distinct : (pairs.map Prod.fst).Nodup)
    (blank : ∀ place ∈ pairs.map Prod.fst, values[place]? = some 0) {value : Nat}
    (some_value : value ≠ 0) :
    (assign values pairs).count value =
      values.count value + (pairs.map Prod.snd).count value := by
  induction pairs generalizing values with
  | nil => rfl
  | cons pair pairs ih =>
      rw [List.map_cons, List.nodup_cons] at distinct
      obtain ⟨here, later⟩ := List.forall_mem_cons.mp blank
      obtain ⟨inside, own⟩ := List.getElem?_eq_some_iff.mp here
      have still (place : Nat) (member : place ∈ pairs.map Prod.fst) :
          (values.set pair.1 pair.2)[place]? = some 0 := by
        have apart : pair.1 ≠ place := fun same => distinct.1 (by rwa [same])
        rw [List.getElem?_set_ne apart, later place member]
      rw [assign, List.foldl_cons, ← assign, ih distinct.2 still, List.count_set inside, own,
        List.map_cons, List.count_cons]
      have other : (0 == value) = false := by simpa using some_value.symm
      simp [other]
      omega

end Assign

/-! ## The symbols that occur -/

def occurring (weights : List Nat) : Nat :=
  weights.countP (0 < ·)

theorem byWeight_perm (weights : List Nat) :
    (byWeight weights).Perm (weights.zipIdx.filter fun (weight, _) => 0 < weight) :=
  List.mergeSort_perm _ _

theorem mem_byWeight {weights : List Nat} {weight symbol : Nat} :
    (weight, symbol) ∈ byWeight weights ↔ weights[symbol]? = some weight ∧ 0 < weight := by
  rw [(byWeight_perm weights).mem_iff, List.mem_filter, List.mk_mem_zipIdx_iff_getElem?,
    decide_eq_true_iff]

theorem length_byWeight (weights : List Nat) : (byWeight weights).length = occurring weights := by
  rw [(byWeight_perm weights).length_eq, ← List.countP_eq_length_filter, occurring]
  conv_rhs => rw [← List.zipIdx_map_fst 0 weights, List.countP_map]
  rfl

theorem nodup_byWeight (weights : List Nat) : ((byWeight weights).map Prod.snd).Nodup := by
  rw [((byWeight_perm weights).map Prod.snd).nodup_iff]
  refine List.Nodup.sublist (List.filter_sublist.map Prod.snd) ?_
  rw [List.zipIdx_map_snd]
  exact List.nodup_range'

theorem getElem?_blank {weights : List Nat} {symbol : Nat}
    (occurs : symbol ∈ (byWeight weights).map Prod.snd) :
    (List.replicate weights.length 0)[symbol]? = some 0 := by
  obtain ⟨⟨weight, symbol⟩, listed, rfl⟩ := List.mem_map.mp occurs
  have inside := (List.getElem?_eq_some_iff.mp (mem_byWeight.mp listed).1).1
  rw [List.getElem?_replicate, if_pos inside]

/-! ## The code of the chosen lengths -/

section Given

variable {weights values : List Nat} {symbol : Nat}

/-- Gives values to the symbols that occur, from the rarest on, and zero to the others. -/
def give (weights values : List Nat) : List Nat :=
  assign (List.replicate weights.length 0) (((byWeight weights).map Prod.snd).zip values)

theorem map_fst_zip_byWeight (enough : values.length = (byWeight weights).length) :
    (((byWeight weights).map Prod.snd).zip values).map Prod.fst =
      (byWeight weights).map Prod.snd :=
  List.map_fst_zip (by rw [List.length_map, enough])

theorem map_snd_zip_byWeight (enough : values.length = (byWeight weights).length) :
    (((byWeight weights).map Prod.snd).zip values).map Prod.snd = values :=
  List.map_snd_zip (by rw [List.length_map, enough])

theorem length_give (weights values : List Nat) :
    (give weights values).length = weights.length := by
  rw [give, length_assign, List.length_replicate]

theorem exists_given (enough : values.length = (byWeight weights).length)
    (occurs : symbol ∈ (byWeight weights).map Prod.snd) :
    ∃ value ∈ values, (give weights values)[symbol]? = some value := by
  have distinct := nodup_byWeight weights
  rw [← map_fst_zip_byWeight enough] at distinct occurs
  obtain ⟨⟨symbol, value⟩, listed, rfl⟩ := List.mem_map.mp occurs
  refine ⟨value, (List.of_mem_zip listed).2, ?_⟩
  rw [map_fst_zip_byWeight enough] at occurs
  exact getElem?_assign_of_mem distinct
    (List.getElem?_eq_some_iff.mp (getElem?_blank occurs)).1 listed

theorem mem_of_mem_give (enough : values.length = (byWeight weights).length) {value : Nat}
    (member : value ∈ give weights values) : value ∈ values ∨ value = 0 := by
  obtain ⟨symbol, found⟩ := List.mem_iff_getElem?.mp member
  by_cases occurs : symbol ∈ (byWeight weights).map Prod.snd
  · obtain ⟨own, listed, own_found⟩ := exists_given enough occurs
    cases found.symm.trans own_found
    exact .inl listed
  · rw [← map_fst_zip_byWeight enough] at occurs
    rw [give, getElem?_assign_of_not_mem occurs] at found
    exact .inr (List.eq_of_mem_replicate (List.mem_of_getElem? found))

theorem count_give (enough : values.length = (byWeight weights).length) {value : Nat}
    (some_value : value ≠ 0) : (give weights values).count value = values.count value := by
  have distinct := nodup_byWeight weights
  rw [← map_fst_zip_byWeight enough] at distinct
  rw [give, count_assign distinct (fun symbol occurs => ?_) some_value,
    map_snd_zip_byWeight enough, List.count_replicate]
  · simp [some_value.symm]
  · rw [map_fst_zip_byWeight enough] at occurs
    exact getElem?_blank occurs

end Given

/-- Lengths that make a code for what occurs. -/
structure Suits (limit : Nat) (weights lengths : List Nat) : Prop where
  length_eq : lengths.length = weights.length
  le_limit : ∀ length ∈ lengths, length ≤ limit
  /-- What occurs has a word. -/
  given : ∀ {symbol weight : Nat}, weights[symbol]? = some weight → 0 < weight →
    ∃ length, lengths[symbol]? = some (length + 1)
  chosen : ∃ counts, Chosen limit (occurring weights) counts ∧
    (List.range limit).map (fun length => lengths.count (length + 1)) = counts.reverse

theorem suits_wordLengths {limit : Nat} {weights : List Nat} (several : 1 < limit)
    (few : weights.length ≤ 2 ^ limit) : Suits limit weights (wordLengths limit weights) := by
  have room : ((byWeight weights).map Prod.fst).length ≤ 2 ^ limit := by
    rw [List.length_map, length_byWeight]
    exact List.countP_le_length.trans few
  have chosen := chosen_limitedCounts several room
  rw [wordLengths]
  generalize limitedCounts limit (depthCounts ((byWeight weights).map Prod.fst)) = counts at chosen
  have enough : (descending limit counts).length = (byWeight weights).length := by
    rw [length_descending, chosen.sum_eq, List.length_map]
  rw [List.length_map, length_byWeight] at chosen
  rw [← give]
  constructor
  · exact length_give _ _
  · intro length member
    rcases mem_of_mem_give enough member with listed | rfl
    · exact (mem_descending chosen.length_eq listed).2
    · exact Nat.zero_le _
  · intro symbol weight present occurs
    have member : symbol ∈ (byWeight weights).map Prod.snd :=
      List.mem_map.mpr ⟨_, mem_byWeight.mpr ⟨present, occurs⟩, rfl⟩
    obtain ⟨value, listed, own⟩ := exists_given enough member
    have positive := (mem_descending chosen.length_eq listed).1
    exact ⟨value - 1, by rw [own, Nat.sub_add_cancel positive]⟩
  · refine ⟨counts, chosen, ?_⟩
    rw [← count_descending chosen.length_eq]
    apply List.map_congr_left
    intro length _
    exact count_give enough (Nat.succ_ne_zero length)

theorem placesTaken_append (counts more : List Nat) :
    placesTaken (counts ++ more) = placesTaken counts + 2 ^ counts.length * placesTaken more := by
  induction counts with
  | nil => simp [placesTaken]
  | cons count counts ih =>
      rw [List.cons_append, placesTaken, ih, placesTaken, List.length_cons]
      ring

theorem unused_eq {counts : List Nat} {free : Nat}
    (room : placesTaken counts.reverse ≤ 2 ^ counts.length * free) :
    Huffman.unused free counts =
      some (2 ^ counts.length * free - placesTaken counts.reverse) := by
  induction counts generalizing free with
  | nil => simp [Huffman.unused, placesTaken]
  | cons count counts ih =>
      rw [List.reverse_cons, placesTaken_append, List.length_reverse] at room ⊢
      simp only [placesTaken, Nat.mul_zero, Nat.add_zero, List.length_cons, Nat.pow_succ] at room ⊢
      have first : count ≤ 2 * free := by
        refine Nat.le_of_mul_le_mul_left ?_ (Nat.two_pow_pos counts.length)
        calc
          2 ^ counts.length * count ≤ 2 ^ counts.length * 2 * free := by omega
          _ = 2 ^ counts.length * (2 * free) := Nat.mul_assoc _ _ _
      have split : 2 ^ counts.length * (2 * free - count) =
          2 ^ counts.length * 2 * free - 2 ^ counts.length * count := by
        rw [Nat.mul_sub, Nat.mul_assoc]
      rw [Huffman.unused, if_pos first, ih (by omega), split]
      congr 1
      omega

section Codes

variable {limit : Nat} {weights lengths : List Nat}

theorem Suits.counts_eq (suits : Suits limit weights lengths)
    (short : limit ≤ Huffman.maxLength) :
    ∃ counts, Chosen limit (occurring weights) counts ∧
      (Huffman.ofLengths lengths).counts =
        counts.reverse ++ List.replicate (Huffman.maxLength - limit) 0 := by
  obtain ⟨counts, chosen, counts_eq⟩ := suits.chosen
  refine ⟨counts, chosen, ?_⟩
  obtain ⟨more, more_eq⟩ := Nat.exists_eq_add_of_le short
  rw [Huffman.ofLengths, ← counts_eq, more_eq, Nat.add_sub_cancel_left]
  dsimp only
  rw [List.range_add, List.map_append]
  congr 1
  refine List.eq_replicate_iff.mpr ⟨by simp, fun count member => ?_⟩
  obtain ⟨length, beyond, rfl⟩ := List.mem_map.mp member
  obtain ⟨offset, -, rfl⟩ := List.mem_map.mp beyond
  refine List.count_eq_zero.mpr fun listed => ?_
  have := suits.le_limit _ listed
  omega

theorem Suits.unused_eq (suits : Suits limit weights lengths) (short : limit ≤ Huffman.maxLength) :
    ∃ left, Huffman.unused 1 (Huffman.ofLengths lengths).counts = some left ∧
      (2 ≤ occurring weights → left = 0) := by
  obtain ⟨counts, chosen, counts_eq⟩ := suits.counts_eq short
  have taken : placesTaken (Huffman.ofLengths lengths).counts.reverse =
      2 ^ (Huffman.maxLength - limit) * placesTaken counts := by
    rw [counts_eq, List.reverse_append, List.reverse_reverse, List.reverse_replicate,
      placesTaken_append, placesTaken_eq_zero (by simp), Nat.zero_add, List.length_replicate]
  have whole : 2 ^ (Huffman.ofLengths lengths).counts.length =
      2 ^ (Huffman.maxLength - limit) * 2 ^ limit := by
    rw [← Nat.pow_add, Nat.sub_add_cancel short]
    simp [Huffman.ofLengths]
  have room : placesTaken (Huffman.ofLengths lengths).counts.reverse ≤
      2 ^ (Huffman.ofLengths lengths).counts.length * 1 := by
    rw [taken, Nat.mul_one, whole]
    exact Nat.mul_le_mul_left _ chosen.places_le
  refine ⟨_, Gzip.unused_eq room, fun several => ?_⟩
  rw [taken, whole, chosen.places_eq several, Nat.mul_one, Nat.sub_self]

theorem Suits.fits (suits : Suits limit weights lengths) (short : limit ≤ Huffman.maxLength) :
    Huffman.Fits lengths where
  short length member := (suits.le_limit length member).trans short
  free := by
    obtain ⟨left, left_eq, -⟩ := suits.unused_eq short
    exact ⟨left, left_eq⟩

theorem Suits.isComplete (suits : Suits limit weights lengths)
    (short : limit ≤ Huffman.maxLength) (several : 2 ≤ occurring weights) :
    (Huffman.ofLengths lengths).isComplete = true := by
  obtain ⟨left, left_eq, none_left⟩ := suits.unused_eq short
  rw [Huffman.isComplete, left_eq, none_left several]
  rfl

theorem Suits.isUsable (suits : Suits limit weights lengths)
    (short : limit ≤ Huffman.maxLength) : (Huffman.ofLengths lengths).isUsable = true := by
  obtain ⟨counts, chosen, counts_eq⟩ := suits.counts_eq short
  have total : (Huffman.ofLengths lengths).symbols.size = occurring weights := by
    rw [Huffman.size_symbols, counts_eq, List.sum_append, List.sum_reverse, chosen.sum_eq]
    simp
  rw [Huffman.isUsable]
  rcases Nat.lt_or_ge (occurring weights) 2 with few | several
  · rcases Nat.lt_or_ge (occurring weights) 1 with none_occurs | one
    · simp [Array.isEmpty, total, Nat.lt_one_iff.mp none_occurs]
    · have lone : occurring weights = 1 := by omega
      have first : (Huffman.ofLengths lengths).counts.head? = some 1 := by
        rw [counts_eq, List.head?_append, List.head?_reverse, chosen.single lone, Option.some_or]
      simp [total, lone, first]
  · simp [suits.isComplete short several]

end Codes

end HeapSampler.Gzip
