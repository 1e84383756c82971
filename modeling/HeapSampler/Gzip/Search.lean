import HeapSampler.Gzip.Token

/-!
# Earlier occurrences

A copy is looked for among the earlier positions whose next three bytes fall into the same class.
Links lead from each position to the last such position before it.  They hold positions modulo
65536, and zero for none, so the start of the data is never found.
-/

namespace HeapSampler.Gzip

def minCopyLength : Nat := 3
def maxCopyLength : Nat := 258

/-- How many bytes before and after a position are at hand together. -/
def windowSize : Nat := 32768

/-- The least distance that is too far for a copy of the shortest length. -/
def farDistance : Nat := 8192

def classCount : Nat := 32768

def classAt (data : Array UInt8) (position : Nat) : Nat :=
  let byte (offset : Nat) : Nat := (data[position + offset]?.getD 0).toNat
  (byte 0 * 1024 ^^^ byte 1 * 32 ^^^ byte 2) % classCount

/-- For each position with three bytes, the last one of its class before it. -/
def linksOf (data : Array UInt8) : Array Nat :=
  ((List.range (data.size - 2)).foldl
    (fun (links, latest) position =>
      let own := classAt data position
      (links.push (latest[own]?.getD 0), latest.setIfInBounds own (position % 65536)))
    (#[], Array.replicate classCount 0)).1

/-- How many bytes agree from two positions on, up to a limit. -/
def agreement (data : Array UInt8) (first second : Nat) : Nat → Nat
  | 0 => 0
  | limit + 1 =>
      match data[first]?, data[second]? with
      | some here, some there =>
          if here = there then agreement data (first + 1) (second + 1) limit + 1 else 0
      | _, _ => 0

/-- How many links are followed; fewer if a copy of 32 bytes is already at hand. -/
def linkBudget (length : Nat) : Nat :=
  if length < 32 then 129 else 33

/--
Follows the links from `place` on to improve on a copy, of which a distance of zero means that
there is none yet.  A place is compared only if it could be better: if the two bytes agree that
follow the length at hand, less one.  Links are followed in groups of three, and a comparison ends
its group.
-/
def improve (data : Array UInt8) (links : Array Nat) (position reach limit : Nat)
    (budget place : Nat) (best : Copy) : Copy :=
  if budget = 0 ∨ limit ≤ best.length then best
  else
    let link := links[place]?.getD 0
    let distance := (position + 65536 - link) % 65536
    if link = 0 ∨ distance = 0 ∨ reach < distance then best
    else
      let place := position - distance
      let last := best.length - 1
      if agreement data (place + last) (position + last) 2 = 2 then
        let length := agreement data place position limit
        improve data links position reach limit ((budget - 1) / 3 * 3) place
          (if best.length < length then ⟨length, distance⟩ else best)
      else improve data links position reach limit (budget - 1) place best
termination_by budget
decreasing_by all_goals omega

/--
The best copy at a position that is longer than `length`, if there is one worth taking.  One of
the least length must not come from far away, and none starts at a multiple of the window's size.
-/
def copyAt? (data : Array UInt8) (links : Array Nat) (position length : Nat) : Option Copy :=
  let limit := min maxCopyLength (data.size - position)
  let reach := min position (windowSize - limit)
  let found := improve data links position reach limit (linkBudget length) position ⟨length, 0⟩
  if found.distance = 0 ∨ found.distance = position % windowSize ∨
      (found.length = minCopyLength ∧ farDistance ≤ found.distance) then none
  else some found

end HeapSampler.Gzip
