import HeapSampler.Gzip.Cut
import HeapSampler.Gzip.Inflate

/-!
# Pieces stand for the data

A copy is taken only where its bytes have been compared, wherever the links lead.  So the pieces of
the blocks stand for the data from front to back, and nothing is held back at its end.
-/

namespace HeapSampler.Gzip

variable {data : Array UInt8}

/-! ## Copies -/

/-- The bytes at a position are those some way back, and both numbers can be written. -/
structure Copy.Repeats (data : Array UInt8) (position : Nat) (copied : Copy) : Prop where
  length_bounds : 3 ≤ copied.length ∧ copied.length ≤ 258
  distance_bounds : 1 ≤ copied.distance ∧ copied.distance ≤ 32768
  behind : copied.distance ≤ position
  inside : position + copied.length ≤ data.size
  same : ∀ offset < copied.length,
    data[position - copied.distance + offset]? = data[position + offset]?

theorem agreement_le (data : Array UInt8) (first second limit : Nat) :
    agreement data first second limit ≤ limit := by
  induction limit generalizing first second with
  | zero => exact Nat.le_refl 0
  | succ limit ih =>
      rw [agreement]
      split
      · split
        · exact Nat.succ_le_succ (ih _ _)
        · exact Nat.zero_le _
      · exact Nat.zero_le _

theorem getElem?_of_agreement {first second limit offset : Nat}
    (within : offset < agreement data first second limit) :
    data[first + offset]? = data[second + offset]? := by
  induction limit generalizing first second offset with
  | zero => cases within
  | succ limit ih =>
      rw [agreement] at within
      split at within
      next here there found_here found_there =>
        split at within
        next same =>
          cases offset with
          | zero => rw [Nat.add_zero, Nat.add_zero, found_here, found_there, same]
          | succ offset =>
              rw [← Nat.add_assoc, ← Nat.add_assoc, Nat.add_right_comm, Nat.add_right_comm second]
              exact ih (Nat.lt_of_succ_lt_succ within)
        next => cases within
      next => cases within

theorem repeats_improve {links : Array Nat} {position reach limit budget place : Nat}
    {best : Copy} (near : reach ≤ position ∧ reach ≤ 32768)
    (few : limit ≤ 258 ∧ limit ≤ data.size - position) (long : 2 ≤ best.length)
    (so_far : best.distance ≠ 0 → best.Repeats data position)
    (found : (improve data links position reach limit budget place best).distance ≠ 0) :
    (improve data links position reach limit budget place best).Repeats data position := by
  induction budget, place, best using improve.induct data links position reach limit with
  | case1 budget place best stop =>
      rw [improve, if_pos stop] at found ⊢
      exact so_far found
  | case2 budget place best go link distance stop =>
      rw [improve, if_neg go, if_pos stop] at found ⊢
      exact so_far found
  | case3 budget place best go link distance usable earlier last alike length ih =>
      rw [improve, if_neg go, if_neg usable, if_pos alike] at found ⊢
      refine ih ?_ ?_ found
      · split
        · exact Nat.le_trans long (Nat.le_of_lt ‹_›)
        · exact long
      · split
        next longer =>
          intro _
          have bounded : length ≤ limit := agreement_le data earlier position limit
          have nearby : distance ≤ reach := by omega
          exact {
            length_bounds := ⟨Nat.lt_of_le_of_lt long longer, Nat.le_trans bounded few.1⟩
            distance_bounds := ⟨by omega, Nat.le_trans nearby near.2⟩
            behind := Nat.le_trans nearby near.1
            inside := by simp only; omega
            same := fun offset within => getElem?_of_agreement within }
        next => exact so_far
  | case4 budget place best go link distance usable earlier last apart ih =>
      rw [improve, if_neg go, if_neg usable, if_neg apart] at found ⊢
      exact ih long so_far found

theorem repeats_copyAt? {links : Array Nat} {position length : Nat} {copied : Copy}
    (long : 2 ≤ length) (found : copyAt? data links position length = some copied) :
    copied.Repeats data position := by
  rw [copyAt?] at found
  split at found
  · cases found
  next accepted =>
    cases found
    simp only [not_or] at accepted
    refine repeats_improve ?_ ?_ long (fun impossible => absurd rfl impossible) accepted.1
    · simp only [windowSize]
      omega
    · simp only [maxCopyLength]
      omega

/-- A copy that is read back continues the data. -/
theorem copyBack_extract {distance position : Nat} (positive : 0 < distance)
    (behind : distance ≤ position) {count : Nat} (inside : position + count ≤ data.size)
    (same : ∀ offset < count, data[position - distance + offset]? = data[position + offset]?) :
    copyBack distance count (data.extract 0 position) = data.extract 0 (position + count) := by
  induction count generalizing position with
  | zero => rfl
  | succ count ih =>
      have here : position < data.size := by omega
      have byte : data[position - distance]? = some data[position] := by
        rw [← Array.getElem?_eq_getElem here]
        exact same 0 (Nat.succ_pos count)
      have read : (data.extract 0 position)[position - distance]? = some data[position] := by
        rw [Array.getElem?_extract, if_pos (by omega), Nat.zero_add, byte]
      have size_eq : (data.extract 0 position).size = position := by
        rw [Array.size_extract]
        omega
      rw [copyBack, size_eq, if_pos behind, read, Option.getD_some,
        ← Array.extract_succ_right (Nat.succ_pos position) here,
        ih (Nat.le_succ_of_le behind) (by omega) (fun offset within => ?_),
        Nat.succ_add_eq_add_succ]
      have later := same (offset + 1) (Nat.succ_lt_succ within)
      rwa [show position + 1 - distance + offset = position - distance + (offset + 1) by omega,
        Nat.succ_add_eq_add_succ]

/-! ## Pieces -/

/-- The token stands for the data between two positions. -/
inductive Token.Advances (data : Array UInt8) : Nat → Token → Nat → Prop where
  | literal {position : Nat} {byte : UInt8} (present : data[position]? = some byte) :
      Advances data position (.literal byte) (position + 1)
  | copy {position : Nat} {copied : Copy} (repeats : copied.Repeats data position) :
      Advances data position (.copy copied) (position + copied.length)

inductive Cuts (data : Array UInt8) : Nat → List Token → Nat → Prop where
  | nil {position : Nat} : Cuts data position [] position
  | cons {position next stop : Nat} {token : Token} {tokens : List Token}
      (advances : token.Advances data position next) (later : Cuts data next tokens stop) :
      Cuts data position (token :: tokens) stop

namespace Cuts

variable {start middle stop : Nat} {token : Token} {tokens more : List Token}

theorem le (cuts : Cuts data start tokens stop) : start ≤ stop := by
  induction cuts with
  | nil => exact Nat.le_refl _
  | cons advances _ ih =>
      refine Nat.le_trans ?_ ih
      cases advances with
      | literal => exact Nat.le_succ _
      | copy => exact Nat.le_add_right _ _

theorem append (first : Cuts data start tokens middle) (second : Cuts data middle more stop) :
    Cuts data start (tokens ++ more) stop := by
  induction first with
  | nil => exact second
  | cons advances _ ih => exact .cons advances (ih second)

theorem push (cuts : Cuts data start tokens middle) (advances : token.Advances data middle stop) :
    Cuts data start (tokens ++ [token]) stop :=
  cuts.append (.cons advances .nil)

theorem exists_advances (cuts : Cuts data start tokens stop) :
    ∀ token ∈ tokens, ∃ position next, token.Advances data position next := by
  induction cuts with
  | nil => exact List.forall_mem_nil _
  | cons advances _ ih => exact List.forall_mem_cons.mpr ⟨⟨_, _, advances⟩, ih⟩

end Cuts

/-- The blocks stand for the data between two positions. -/
inductive Covers (data : Array UInt8) : Nat → List Block → Nat → Prop where
  | nil {position : Nat} : Covers data position [] position
  | cons {start middle stop : Nat} {block : Block} {blocks : List Block}
      (cuts : Cuts data start block.tokens.toList middle)
      (content_eq : block.content = data.extract start middle)
      (later : Covers data middle blocks stop) :
      Covers data start (block :: blocks) stop

namespace Covers

variable {start middle stop : Nat} {blocks more : List Block}

theorem append (first : Covers data start blocks middle) (second : Covers data middle more stop) :
    Covers data start (blocks ++ more) stop := by
  induction first with
  | nil => exact second
  | cons cuts content_eq _ ih => exact .cons cuts content_eq (ih second)

end Covers

/-! ## The cutting -/

namespace Cutting

variable {cutting : Cutting} {links : Array Nat}

/-- Where the pieces of a cutting end. -/
def reached (cutting : Cutting) : Nat :=
  cutting.position - (if cutting.held.isSome then 1 else 0)

structure Sound (data : Array UInt8) (cutting : Cutting) : Prop where
  position_le : cutting.position ≤ data.size
  covers : Covers data 0 cutting.blocks.toList cutting.start
  cuts : Cuts data cutting.start cutting.tokens.toList cutting.reached
  held : ∀ held, cutting.held = some held →
    0 < cutting.position ∧ held.Repeats data (cutting.position - 1)

theorem Sound.start_add_covered (sound : Sound data cutting) :
    cutting.start + cutting.covered = cutting.reached := by
  have := sound.cuts.le
  rw [covered]
  rw [reached] at this ⊢
  omega

theorem sound_empty (data : Array UInt8) : Sound data {} where
  position_le := Nat.zero_le _
  covers := .nil
  cuts := .nil
  held := nofun

theorem Sound.cuts_of_none (sound : Sound data cutting) (none_held : cutting.held = none) :
    Cuts data cutting.start cutting.tokens.toList cutting.position := by
  have cuts := sound.cuts
  rwa [reached, none_held] at cuts

theorem Sound.cuts_of_some (sound : Sound data cutting) {held : Copy}
    (some_held : cutting.held = some held) :
    Cuts data cutting.start cutting.tokens.toList (cutting.position - 1) := by
  have cuts := sound.cuts
  rwa [reached, some_held] at cuts

/-- A copy is taken where the pieces end, whatever was held back before. -/
theorem sound_take {copied : Copy} (covers : Covers data 0 cutting.blocks.toList cutting.start)
    (cuts : Cuts data cutting.start cutting.tokens.toList cutting.position)
    (repeats : copied.Repeats data cutting.position) : Sound data (cutting.take copied) := by
  have inside := repeats.inside
  have length_bounds := repeats.length_bounds
  rw [take]
  split
  · constructor
    · exact inside
    · exact covers
    · rw [advance, pushCopy, reached, Array.toList_push]
      exact cuts.push (.copy repeats)
    · exact nofun
  · constructor
    · simp only [advance]
      omega
    · exact covers
    · exact cuts
    · rintro held ⟨rfl⟩
      exact ⟨Nat.succ_pos _, repeats⟩

theorem position_lt_take (cutting : Cutting) {copied : Copy}
    (repeats : copied.Repeats data cutting.position) :
    cutting.position < (cutting.take copied).position := by
  have length_bounds := repeats.length_bounds
  rw [take]
  split
  · simp only [advance, pushCopy]
    omega
  · exact Nat.lt_succ_self _

theorem Sound.cutNext (sound : Sound data cutting) (more : cutting.position < data.size)
    (links : Array Nat) :
    Sound data (cutting.cutNext data links) ∧
      cutting.position < (cutting.cutNext data links).position := by
  rw [Cutting.cutNext]
  split
  next none_held =>
    have cuts := sound.cuts_of_none none_held
    split
    next copied found =>
      have repeats := repeats_copyAt? (by decide) found
      exact ⟨sound_take sound.covers cuts repeats, position_lt_take cutting repeats⟩
    next =>
      refine ⟨?_, Nat.lt_succ_self _⟩
      constructor
      · exact more
      · exact sound.covers
      · simp only [advance, pushLiteral, reached, none_held, Array.toList_push,
          Array.getElem?_eq_getElem more, Option.getD_some]
        exact cuts.push (.literal (Array.getElem?_eq_getElem more))
      · intro held some_held
        cases none_held.symm.trans some_held
  next held some_held =>
    obtain ⟨positive, held_repeats⟩ := sound.held held some_held
    have cuts := sound.cuts_of_some some_held
    have length_bounds := held_repeats.length_bounds
    split
    next copied found =>
      -- the copy held back gives way to a longer one, and only its first byte is cut
      have repeats := repeats_copyAt? (Nat.le_of_lt length_bounds.1) found
      have before : cutting.position - 1 < data.size := by omega
      refine ⟨sound_take sound.covers ?_ repeats, position_lt_take (cutting.pushLiteral _) repeats⟩
      simp only [pushLiteral, Array.toList_push, Array.getElem?_eq_getElem before,
        Option.getD_some]
      have advances := Token.Advances.literal (Array.getElem?_eq_getElem before)
      rw [Nat.sub_add_cancel positive] at advances
      exact cuts.push advances
    next =>
      -- the copy held back starts one byte before the position
      have inside := held_repeats.inside
      refine ⟨?_, ?_⟩
      · constructor
        · simp only [advance, pushCopy]
          omega
        · exact sound.covers
        · simp only [advance, pushCopy, reached, Array.toList_push]
          have same : cutting.position + (held.length - 1) =
              cutting.position - 1 + held.length := by omega
          rw [same]
          exact cuts.push (.copy held_repeats)
        · exact nofun
      · simp only [advance, pushCopy]
        omega

theorem Sound.close (sound : Sound data cutting) : Sound data (cutting.close data) := by
  have stop := sound.start_add_covered
  constructor
  · exact sound.position_le
  · rw [Cutting.close, Array.toList_push, stop]
    exact sound.covers.append (.cons sound.cuts rfl .nil)
  · rw [Cutting.close, stop]
    exact .nil
  · exact sound.held

/-- A copy that is held back goes on for longer than the byte before the position. -/
theorem Sound.reached_eq (sound : Sound data cutting) (stop : data.size ≤ cutting.position) :
    cutting.reached = data.size := by
  have position_eq : cutting.position = data.size := Nat.le_antisymm sound.position_le stop
  rw [reached, ← position_eq]
  cases some_held : cutting.held with
  | none => rfl
  | some held =>
      obtain ⟨positive, repeats⟩ := sound.held held some_held
      have inside := repeats.inside
      have length_bounds := repeats.length_bounds
      omega

/-- Enough steps cut the data to its end. -/
theorem Sound.run {steps : Nat} (sound : Sound data cutting)
    (enough : data.size ≤ cutting.position + steps) (links : Array Nat) :
    Sound data (run data links steps cutting) ∧
      (run data links steps cutting).reached = data.size := by
  induction steps generalizing cutting with
  | zero => exact ⟨sound, sound.reached_eq enough⟩
  | succ steps ih =>
      rw [Cutting.run]
      split
      next stop => exact ⟨sound, sound.reached_eq stop⟩
      next more =>
        obtain ⟨next, advanced⟩ := sound.cutNext (Nat.lt_of_not_le more) links
        dsimp only
        split
        · exact ih next.close (by simp only [Cutting.close]; omega)
        · exact ih next (by omega)

end Cutting

/-- The blocks stand for all of the data. -/
theorem covers_blocksOf (data : Array UInt8) : Covers data 0 (blocksOf data) data.size := by
  obtain ⟨sound, reached_eq⟩ :=
    (Cutting.sound_empty data).run (Nat.le_add_left _ _) (linksOf data)
  have covers := sound.close.covers
  have start_eq : (Cutting.close data (Cutting.run data (linksOf data) data.size {})).start =
      data.size := sound.start_add_covered.trans reached_eq
  rw [start_eq] at covers
  exact covers

theorem blocksOf_ne_nil (data : Array UInt8) : blocksOf data ≠ [] := by
  rw [blocksOf, Cutting.close, Array.toList_push]
  exact List.concat_ne_nil _ _

end HeapSampler.Gzip
