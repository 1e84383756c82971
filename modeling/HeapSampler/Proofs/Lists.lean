import Mathlib

/-!
# Lists and steps that may fail

What the development needs to know about lists, options and results, whatever they hold.
-/

namespace HeapSampler

/-! ## Steps that may fail -/

section Steps

variable {ε α β γ : Type}

theorem error_of_map {go : α → β} {result : Except ε α} {cause : ε}
    (mapped : result.map go = .error cause) : result = .error cause := by
  cases result with
  | error own => exact congrArg Except.error (Except.error.inj mapped)
  | ok own => cases mapped

theorem exists_ok_of_map {go : α → β} {result : Except ε α} {value : β}
    (mapped : result.map go = .ok value) : ∃ own, result = .ok own ∧ go own = value := by
  cases result with
  | error cause => cases mapped
  | ok own => exact ⟨own, rfl, Except.ok.inj mapped⟩

theorem toOption_bind (step : Except ε α) (next : α → Except ε β) :
    (step >>= next).toOption = step.toOption.bind fun value => (next value).toOption := by
  cases step <;> rfl

theorem toOption_mapM (step : α → Except ε β) (items : List α) :
    (items.mapM step).toOption = items.mapM fun item => (step item).toOption := by
  induction items with
  | nil => rfl
  | cons item rest ih =>
      rw [List.mapM_cons, List.mapM_cons, toOption_bind]
      apply congrArg (Option.bind _)
      funext value
      rw [toOption_bind, ih]
      rfl

theorem isSome_bind {value? : Option α} {next : α → Option β} :
    (value?.bind next).isSome ↔ ∃ value, value? = some value ∧ (next value).isSome := by
  cases value? <;> simp

theorem isSome_both {first? : Option α} {second? : Option β} {make : α → β → γ} :
    (first?.bind fun first => second?.bind fun second => some (make first second)).isSome ↔
      first?.isSome ∧ second?.isSome := by
  cases first? <;> cases second? <;> simp

theorem isSome_mapM {get : α → Option β} {items : List α} :
    (items.mapM get).isSome ↔ ∀ item ∈ items, (get item).isSome := by
  induction items with
  | nil => simp
  | cons item rest ih =>
      rw [List.mapM_cons, List.forall_mem_cons, ← ih]
      cases get item <;> cases rest.mapM get <;> simp

end Steps

/-! ## Steps for all items -/

section Items

variable {α β γ : Type}

theorem mapM_eq_pure {m : Type → Type} [Monad m] [LawfulMonad m] {step : α → m β} {items : List α}
    {values : List β}
    (each : List.Forall₂ (fun item value => step item = pure value) items values) :
    items.mapM step = pure values := by
  induction each with
  | nil => exact List.mapM_nil
  | cons first _ ih => rw [List.mapM_cons, first, pure_bind, ih, pure_bind]

theorem mapM_of_map_eq {items : List α} {values : List β} {get : α → Option β}
    (found : items.map get = values.map some) : items.mapM get = some values := by
  refine mapM_eq_pure ?_
  rw [← List.forall₂_eq_eq_eq, List.forall₂_map_left_iff, List.forall₂_map_right_iff] at found
  exact found

theorem map_eq_of_mapM {items : List α} {values : List β} {get : α → Option β}
    (found : items.mapM get = some values) : items.map get = values.map some := by
  induction items generalizing values with
  | nil =>
      cases found
      rfl
  | cons item rest ih =>
      rw [List.mapM_cons] at found
      obtain ⟨value, first, found⟩ := Option.bind_eq_some_iff.mp found
      obtain ⟨others, later, found⟩ := Option.bind_eq_some_iff.mp found
      cases found
      rw [List.map_cons, List.map_cons, first, ih later]

theorem mapM_eq_of_forall₂ {get : α → Option γ} {other : β → Option γ}
    {items : List α} {others : List β}
    (same : List.Forall₂ (fun item item' => get item = other item') items others) :
    items.mapM get = others.mapM other := by
  induction same with
  | nil => rfl
  | cons first _ ih => rw [List.mapM_cons, List.mapM_cons, first, ih]

theorem mapM_eq_mapM_map {get : α → Option γ} {other : β → Option γ} {see : α → β}
    {items : List α} (same : ∀ item ∈ items, get item = other (see item)) :
    items.mapM get = (items.map see).mapM other := by
  apply mapM_eq_of_forall₂
  apply List.forall₂_map_right_iff.mpr
  exact List.forall₂_same.mpr same

theorem mapM_perm {get : α → Option β} {items items' : List α} {values : List β}
    (same : items.Perm items') (found : items.mapM get = some values) :
    ∃ values', items'.mapM get = some values' ∧ values.Perm values' := by
  have each := map_eq_of_mapM found
  rw [← List.forall₂_eq_eq_eq, List.forall₂_map_left_iff, List.forall₂_map_right_iff] at each
  obtain ⟨values', each', perm⟩ := List.perm_comp_forall₂ same.symm each
  exact ⟨values', mapM_eq_pure each', perm.symm⟩

theorem filterMap_of_forall₂ {items : List α} {values : List β} {get : α → Option β}
    (found : List.Forall₂ (fun item value => get item = some value) items values) :
    items.filterMap get = values := by
  induction found with
  | nil => rfl
  | cons first _ ih => rw [List.filterMap_cons_some first, ih]

theorem map_eq_of_keeps {items : List α} {values : List β} {get get' : α → Option β}
    (keeps : ∀ item ∈ items, ∀ {value : β}, get item = some value → get' item = some value)
    (found : items.map get = values.map some) : items.map get' = values.map some := by
  induction items generalizing values with
  | nil => exact found
  | cons item rest ih =>
      obtain ⟨first, others⟩ := List.forall_mem_cons.mp keeps
      cases values with
      | nil => cases found
      | cons value later =>
          rw [List.map_cons, List.map_cons, List.cons.injEq] at found ⊢
          exact ⟨first found.1, ih others found.2⟩

theorem map_eq_map_of_some {items : List α} {get get' : α → Option β}
    (found : ∀ item ∈ items, ∃ value, get item = some value)
    (keeps : ∀ item ∈ items, ∀ {value : β}, get item = some value → get' item = some value) :
    items.map get' = items.map get := by
  refine List.map_congr_left fun item listed => ?_
  obtain ⟨value, present⟩ := found item listed
  rw [present, keeps item listed present]

end Items

/-! ## Related lists -/

section Related

variable {α β γ : Type}

theorem exists_forall₂ {Rel : α → β → Prop} {items : List α}
    (each : ∀ item ∈ items, ∃ value, Rel item value) : ∃ values, List.Forall₂ Rel items values := by
  induction items with
  | nil => exact ⟨[], .nil⟩
  | cons item rest ih =>
      obtain ⟨first, others⟩ := List.forall_mem_cons.mp each
      obtain ⟨value, related⟩ := first
      obtain ⟨values, all_related⟩ := ih others
      exact ⟨value :: values, .cons related all_related⟩

/-- Two lists that are related through something in between have a list of it. -/
theorem exists_between {Left : α → γ → Prop} {Right : β → γ → Prop} {items : List α}
    {values : List β}
    (related : List.Forall₂ (fun item value => ∃ middle, Left item middle ∧ Right value middle)
      items values) :
    ∃ middles, List.Forall₂ Left items middles ∧ List.Forall₂ Right values middles := by
  induction related with
  | nil => exact ⟨[], .nil, .nil⟩
  | cons first _ ih =>
      obtain ⟨middle, left, right⟩ := first
      obtain ⟨middles, lefts, rights⟩ := ih
      exact ⟨middle :: middles, .cons left lefts, .cons right rights⟩

theorem exists_right {Rel : α → β → Prop} {items : List α} {values : List β} {item : α}
    (related : List.Forall₂ Rel items values) (member : item ∈ items) :
    ∃ value ∈ values, Rel item value := by
  induction related with
  | nil => cases member
  | cons first _ ih =>
      rcases List.mem_cons.mp member with rfl | later
      · exact ⟨_, List.mem_cons_self, first⟩
      · obtain ⟨value, listed, related⟩ := ih later
        exact ⟨value, List.mem_cons_of_mem _ listed, related⟩

theorem exists_left {Rel : α → β → Prop} {items : List α} {values : List β} {value : β}
    (related : List.Forall₂ Rel items values) (member : value ∈ values) :
    ∃ item ∈ items, Rel item value :=
  exists_right related.flip member

theorem forall₂_imp_mem {Rel Rel' : α → β → Prop} {items : List α} {values : List β}
    (each : ∀ value ∈ values, ∀ item, Rel item value → Rel' item value)
    (related : List.Forall₂ Rel items values) : List.Forall₂ Rel' items values := by
  induction related with
  | nil => exact .nil
  | cons first _ ih =>
      obtain ⟨here, later⟩ := List.forall_mem_cons.mp each
      exact .cons (here _ first) (ih later)

theorem nodup_map_of_forall₂ {Rel : α → β → Prop} {items : List α} {values : List β}
    {see : β → γ} (related : List.Forall₂ Rel items values) (nodup : items.Nodup)
    (apart : ∀ {item item' : α} {value value' : β}, Rel item value → Rel item' value' →
      see value = see value' → item = item') : (values.map see).Nodup := by
  induction related with
  | nil => exact .nil
  | cons first others ih =>
      obtain ⟨fresh, nodup⟩ := List.nodup_cons.mp nodup
      refine List.nodup_cons.mpr ⟨fun member => ?_, ih nodup⟩
      obtain ⟨value, listed, same⟩ := List.mem_map.mp member
      obtain ⟨item, item_listed, found⟩ := exists_left others listed
      exact fresh (apart found first same ▸ item_listed)

end Related

/-! ## Searching -/

section Searching

variable {α κ : Type}

theorem exists_find? (test : α → Bool) {items : List α} {item : α} (member : item ∈ items)
    (passed : test item = true) :
    ∃ found, items.find? test = some found ∧ found ∈ items ∧ test found = true := by
  obtain ⟨found, found_eq⟩ := Option.isSome_iff_exists.mp
    (List.find?_isSome.mpr ⟨item, member, passed⟩)
  exact ⟨found, found_eq, List.mem_of_find?_eq_some found_eq, List.find?_some found_eq⟩

theorem getElem?_of_idxOf? [BEq α] [LawfulBEq α] {items : Array α} {item : α} {index : Nat}
    (found : items.idxOf? item = some index) : items[index]? = some item := by
  obtain ⟨items⟩ := items
  rw [List.idxOf?_toArray] at found
  obtain ⟨inside, same, -⟩ := List.findIdx?_eq_some_iff_getElem.mp found
  simp only [List.getElem?_toArray, List.getElem?_eq_getElem inside, beq_iff_eq.mp same]

theorem not_mem_of_idxOf? [BEq α] [LawfulBEq α] {items : Array α} {item : α}
    (absent : items.idxOf? item = none) : item ∉ items := by
  obtain ⟨items⟩ := items
  rw [List.idxOf?_toArray] at absent
  simpa using absent

theorem getElem?_push_of_some {items : Array α} {index : Nat} {item : α}
    (found : items[index]? = some item) (last : α) : (items.push last)[index]? = some item := by
  have inside := (Array.getElem?_eq_some_iff.mp found).1
  rw [Array.getElem?_push_lt inside, ← Array.getElem?_eq_getElem inside, found]

/-! ## Keys -/

variable {key : α → κ} {items : List α} {rename : κ → κ} {see : α → α} {mentioned : Set κ}

/-- Items stay apart when keys that tell as much replace theirs. -/
theorem nodup_map_map (distinct : (items.map key).Nodup)
    (key_eq : ∀ item, key (see item) = rename (key item)) (apart : Set.InjOn rename mentioned)
    (owned : ∀ item ∈ items, key item ∈ mentioned) : ((items.map see).map key).Nodup := by
  have renamed : key ∘ see = rename ∘ key := funext key_eq
  rw [List.map_map, renamed, ← List.map_map]
  apply distinct.map_on
  intro first first_listed second second_listed same
  obtain ⟨item, member, rfl⟩ := List.mem_map.mp first_listed
  obtain ⟨other, other_member, rfl⟩ := List.mem_map.mp second_listed
  exact apart (owned item member) (owned other other_member) same

variable [DecidableEq κ]

/-- If no two items have one key, an item is found under its key wherever it stands. -/
theorem find?_reverse_eq_some_iff (distinct : (items.map key).Nodup) {wanted : κ} {item : α} :
    items.reverse.find? (key · = wanted) = some item ↔ item ∈ items ∧ key item = wanted := by
  constructor
  · intro found
    have passed : decide (key item = wanted) = true :=
      List.find?_some (p := (key · = wanted)) found
    exact ⟨List.mem_reverse.mp (List.mem_of_find?_eq_some found), of_decide_eq_true passed⟩
  · rintro ⟨member, rfl⟩
    obtain ⟨other, found, listed, same⟩ :=
      exists_find? (key · = key item) (List.mem_reverse.mpr member) (decide_eq_true rfl)
    rw [found, List.inj_on_of_nodup_map distinct (List.mem_reverse.mp listed) member
      (of_decide_eq_true same)]

theorem find?_reverse_eq_of_perm (distinct : (items.map key).Nodup) {items' : List α}
    (same : items.Perm items') (wanted : κ) :
    items'.reverse.find? (key · = wanted) = items.reverse.find? (key · = wanted) := by
  have distinct' := (same.map key).nodup_iff.mp distinct
  apply Option.ext
  intro item
  rw [find?_reverse_eq_some_iff distinct, find?_reverse_eq_some_iff distinct', same.mem_iff]

/-- Under its new key the item is found that was found under the old one. -/
theorem find?_reverse_map (key_eq : ∀ item, key (see item) = rename (key item))
    (apart : Set.InjOn rename mentioned) (owned : ∀ item ∈ items, key item ∈ mentioned) {wanted : κ}
    (asked : wanted ∈ mentioned) :
    (items.map see).reverse.find? (key · = rename wanted) =
      (items.reverse.find? (key · = wanted)).map see := by
  rw [← List.map_reverse, List.find?_map]
  apply congrArg
  apply List.find?_congr
  intro item member
  have known := owned item (List.mem_reverse.mp member)
  simp only [Function.comp_apply, key_eq, decide_eq_decide]
  exact apart.eq_iff known asked

end Searching

/-! ## Repetitions -/

theorem eraseDups_concat {κ : Type} [DecidableEq κ] (keys : List κ) (key : κ) :
    (keys ++ [key]).eraseDups = if key ∈ keys then keys.eraseDups else keys.eraseDups ++ [key] := by
  rw [List.eraseDups_append]
  by_cases present : key ∈ keys
  · rw [if_pos present]
    simp [List.removeAll, present]
  · rw [if_neg present]
    simp [List.removeAll, present, List.eraseDups_cons]

theorem eraseReps_loop {first : Nat} {rest : List Nat} (done : List Nat)
    (ascending : (first :: rest).Pairwise (· ≤ ·)) :
    ∃ left, List.eraseRepsBy.loop (· == ·) first rest done = done.reverse ++ left ∧
      left.Pairwise (· < ·) ∧ ∀ number, number ∈ left ↔ number ∈ first :: rest := by
  induction rest generalizing first done with
  | nil => exact ⟨[first], List.reverse_cons .., List.pairwise_singleton .., fun _ => .rfl⟩
  | cons second rest ih =>
      obtain ⟨above, tail⟩ := List.pairwise_cons.mp ascending
      rw [List.eraseRepsBy.loop]
      cases same : first == second with
      | true =>
          cases beq_iff_eq.mp same
          obtain ⟨left, left_eq, strict, members⟩ := ih done tail
          refine ⟨left, left_eq, strict, fun number => (members number).trans ?_⟩
          simp
      | false =>
          obtain ⟨left, left_eq, strict, members⟩ := ih (first :: done) tail
          refine ⟨first :: left, ?_, List.pairwise_cons.mpr ⟨fun number member => ?_, strict⟩,
            fun number => ?_⟩
          · rw [left_eq, List.reverse_cons, List.append_assoc, List.singleton_append]
          · have differs : first ≠ second := by simpa using same
            have next := above second List.mem_cons_self
            rcases List.mem_cons.mp ((members number).mp member) with rfl | later
            · omega
            · have := (List.pairwise_cons.mp tail).1 number later
              omega
          · simp only [List.mem_cons, members]

/-- Of numbers in order each is kept once. -/
theorem eraseReps_of_ascending {numbers : List Nat} (ascending : numbers.Pairwise (· ≤ ·)) :
    numbers.eraseReps.Pairwise (· < ·) ∧
      ∀ number, number ∈ numbers.eraseReps ↔ number ∈ numbers := by
  cases numbers with
  | nil => exact ⟨.nil, fun _ => .rfl⟩
  | cons first rest =>
      obtain ⟨left, left_eq, strict, members⟩ := eraseReps_loop [] ascending
      rw [List.eraseReps, List.eraseRepsBy, left_eq]
      exact ⟨strict, members⟩

theorem mergeSort_ascending (numbers : List Nat) : numbers.mergeSort.Pairwise (· ≤ ·) := by
  have sorted : numbers.mergeSort.Pairwise fun first second => decide (first ≤ second) = true :=
    List.pairwise_mergeSort (by simpa using fun _ _ _ => Nat.le_trans) (by simpa using Nat.le_total)
      numbers
  simpa using sorted

/-! ## Lengths -/

section Lengths

variable {α β : Type}

theorem length_flatMap_le {items : List α} {write : α → List β} {bound : Nat}
    (each : ∀ item ∈ items, (write item).length ≤ bound) :
    (items.flatMap write).length ≤ bound * items.length := by
  induction items with
  | nil => exact Nat.zero_le _
  | cons item rest ih =>
      obtain ⟨first, others⟩ := List.forall_mem_cons.mp each
      have later := ih others
      rw [List.flatMap_cons, List.length_append, List.length_cons, Nat.mul_succ]
      omega

/-- Parts that are no longer than others are the same if they are the same together. -/
theorem append_eq_append_iff_of_le {short short' long long' : List α}
    (first : short.length ≤ long.length) (second : short'.length ≤ long'.length) :
    long ++ long' = short ++ short' ↔ long = short ∧ long' = short' := by
  constructor
  · intro same
    have length_eq := congrArg List.length same
    rw [List.length_append, List.length_append] at length_eq
    exact List.append_inj same (by omega)
  · rintro ⟨rfl, rfl⟩
    rfl

theorem flatMap_eq_flatMap_iff_of_le {items : List α} {short long : α → List β}
    (each : ∀ item ∈ items, (short item).length ≤ (long item).length) :
    items.flatMap long = items.flatMap short ↔ ∀ item ∈ items, long item = short item := by
  induction items with
  | nil => simp
  | cons item rest ih =>
      obtain ⟨first, others⟩ := List.forall_mem_cons.mp each
      have rest_le : (rest.flatMap short).length ≤ (rest.flatMap long).length := by
        rw [List.length_flatMap, List.length_flatMap]
        exact List.sum_le_sum others
      rw [List.flatMap_cons, List.flatMap_cons, append_eq_append_iff_of_le first rest_le, ih others,
        List.forall_mem_cons]

theorem getElem?_flatMap {items : List α} {go : α → List β} {place offset : Nat} {item : α}
    (found : items[place]? = some item) (inside : offset < (go item).length) :
    (items.flatMap go)[((items.take place).map fun item => (go item).length).sum + offset]? =
      (go item)[offset]? := by
  induction items generalizing place with
  | nil => cases found
  | cons first items ih =>
      rw [List.flatMap_cons]
      cases place with
      | zero =>
          cases found
          simp [List.getElem?_append_left inside]
      | succ place =>
          rw [List.take_succ_cons, List.map_cons, List.sum_cons, Nat.add_assoc,
            List.getElem?_append_right (Nat.le_add_right _ _), Nat.add_sub_cancel_left, ih found]

end Lengths

/-! ## Arrays and lists -/

section Arrays

variable {α : Type}

@[simp]
theorem size_appendList (items : Array α) (more : List α) :
    (items ++ more).size = items.size + more.length := by
  rw [← Array.length_toList, Array.toList_appendList, List.length_append, Array.length_toList]

theorem appendList_assoc (items : Array α) (first second : List α) :
    items ++ first ++ second = items ++ (first ++ second) := by
  apply Array.toList_inj.mp
  simp

theorem appendList_toList (first second : Array α) : first ++ second.toList = first ++ second := by
  apply Array.toList_inj.mp
  rw [Array.toList_appendList, Array.toList_append]

end Arrays

end HeapSampler
