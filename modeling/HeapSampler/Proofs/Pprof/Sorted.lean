import Mathlib
import HeapSampler.Pprof.Resolved

/-!
# One order for each collection

The order of frames, tags and samples is total and tells different ones apart, so a collection can
be sorted in one way only.
-/

namespace HeapSampler.Pprof

open Std (TransOrd LawfulEqOrd TransCmp OrientedCmp)

instance : TransOrd ResolvedFrame :=
  inferInstanceAs (TransCmp (compareLex (compareOn ResolvedFrame.functionName)
    (compareLex (compareOn ResolvedFrame.fileName) (compareOn ResolvedFrame.line))))

instance : LawfulEqOrd ResolvedFrame where
  eq_of_compare {first second} same := by
    obtain ⟨name, file, line⟩ :
        compare first.functionName second.functionName = .eq ∧
          compare first.fileName second.fileName = .eq ∧ compare first.line second.line = .eq := by
      simpa only [compareLex_eq_eq, compareOn] using
        show compareLex (compareOn ResolvedFrame.functionName)
          (compareLex (compareOn ResolvedFrame.fileName) (compareOn ResolvedFrame.line))
          first second =
            .eq from same
    obtain ⟨_, _, _⟩ := first
    obtain ⟨_, _, _⟩ := second
    cases LawfulEqOrd.eq_of_compare name
    cases LawfulEqOrd.eq_of_compare file
    cases LawfulEqOrd.eq_of_compare line
    rfl

instance : TransOrd ResolvedTag :=
  inferInstanceAs (TransCmp (compareLex (compareOn ResolvedTag.key) (compareOn ResolvedTag.value)))

instance : LawfulEqOrd ResolvedTag where
  eq_of_compare {first second} same := by
    obtain ⟨key, value⟩ :
        compare first.key second.key = .eq ∧ compare first.value second.value = .eq := by
      simpa only [compareLex_eq_eq, compareOn] using
        show compareLex (compareOn ResolvedTag.key) (compareOn ResolvedTag.value) first second = .eq
          from same
    obtain ⟨_, _⟩ := first
    obtain ⟨_, _⟩ := second
    cases LawfulEqOrd.eq_of_compare key
    cases LawfulEqOrd.eq_of_compare value
    rfl

instance : TransOrd ResolvedSample :=
  inferInstanceAs (TransCmp (compareLex (compareOn ResolvedSample.frames)
    (compareLex (compareOn ResolvedSample.tags)
      (compareLex (compareOn ResolvedSample.objects) (compareOn ResolvedSample.sizeBytes)))))

instance : LawfulEqOrd ResolvedSample where
  eq_of_compare {first second} same := by
    obtain ⟨frames, tags, objects, sizeBytes⟩ :
        compare first.frames second.frames = .eq ∧ compare first.tags second.tags = .eq ∧
          compare first.objects second.objects = .eq ∧
          compare first.sizeBytes second.sizeBytes = .eq := by
      simpa only [compareLex_eq_eq, compareOn] using
        show compareLex (compareOn ResolvedSample.frames)
          (compareLex (compareOn ResolvedSample.tags)
            (compareLex (compareOn ResolvedSample.objects) (compareOn ResolvedSample.sizeBytes)))
          first second = .eq from same
    obtain ⟨_, _, _, _⟩ := first
    obtain ⟨_, _, _, _⟩ := second
    cases LawfulEqOrd.eq_of_compare frames
    cases LawfulEqOrd.eq_of_compare tags
    cases LawfulEqOrd.eq_of_compare objects
    cases LawfulEqOrd.eq_of_compare sizeBytes
    rfl

section Sorted

variable {α : Type} [Ord α]

theorem sorted_perm (items : List α) : (sorted items).Perm items :=
  List.mergeSort_perm items _

theorem sorted_ascending [TransOrd α] (items : List α) :
    (sorted items).Pairwise fun first second => (compare first second).isLE := by
  refine List.pairwise_mergeSort (fun _ _ _ => TransCmp.isLE_trans) (fun first second => ?_) items
  rw [show compare second first = (compare first second).swap from OrientedCmp.eq_swap]
  cases compare first second <;> rfl

/-- Items in any order are sorted to the same list. -/
theorem sorted_eq_of_perm [TransOrd α] [LawfulEqOrd α] {items others : List α}
    (same : items.Perm others) : sorted items = sorted others := by
  have reordered := (sorted_perm items).trans (same.trans (sorted_perm others).symm)
  refine List.Perm.eq_of_pairwise (fun first second _ _ one two => ?_) (sorted_ascending items)
    (sorted_ascending others) reordered
  exact LawfulEqOrd.eq_of_compare (OrientedCmp.isLE_antisymm one two)

end Sorted

end HeapSampler.Pprof
