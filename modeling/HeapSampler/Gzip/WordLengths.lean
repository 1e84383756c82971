import HeapSampler.Gzip.Huffman

/-!
# Choosing the lengths of code words

The more often a symbol occurs, the shorter its word.  The two lightest of all subtrees are joined
until one is left; the depth of a leaf is the length of a word.  Words that come out too long are
cut to the limit, and shorter ones give up room for them.
-/

namespace HeapSampler.Gzip

/-- A subtree, by its weight and by how many leaves it has at depth 0, 1, and so on. -/
structure Subtree where
  weight : Nat
  leaves : List Nat

namespace Subtree

def leaf (weight : Nat) : Subtree := ⟨weight, [1]⟩

def sumLists : List Nat → List Nat → List Nat
  | [], ys => ys
  | xs, [] => xs
  | x :: xs, y :: ys => (x + y) :: sumLists xs ys

def join (first second : Subtree) : Subtree :=
  ⟨first.weight + second.weight, 0 :: sumLists first.leaves second.leaves⟩

/--
Takes the lightest subtree off the leaves or off the joined ones, both in ascending order; of two
that weigh the same, the leaf.
-/
def lightest? : List Subtree → List Subtree → Option (Subtree × List Subtree × List Subtree)
  | leaf :: leaves, joined :: rest =>
      if joined.weight < leaf.weight then some (joined, leaf :: leaves, rest)
      else some (leaf, leaves, joined :: rest)
  | leaf :: leaves, [] => some (leaf, leaves, [])
  | [], joined :: rest => some (joined, [], rest)
  | [], [] => none

def joinAll : Nat → List Subtree → List Subtree → List Subtree
  | 0, leaves, joined => leaves ++ joined
  | steps + 1, leaves, joined =>
      match lightest? leaves joined with
      | none => []
      | some (first, leaves, joined) =>
          match lightest? leaves joined with
          | none => [first]
          | some (second, leaves, joined) =>
              joinAll steps leaves (joined ++ [first.join second])

end Subtree

/-- How many words there are of length 1, 2, and so on, for weights in ascending order. -/
def depthCounts (weights : List Nat) : List Nat :=
  match Subtree.joinAll weights.length (weights.map Subtree.leaf) [] with
  | [tree] => if weights.length = 1 then [1] else tree.leaves.drop 1
  | _ => []

/--
How many words of the longest length the counted words take the place of.  Here and below the
counts come from the longest words on.
-/
def placesTaken : List Nat → Nat
  | [] => 0
  | longest :: shorter => longest + 2 * placesTaken shorter

/-- The counts of the words below the limit, from the shortest on. -/
def shorterWords (limit : Nat) (counts : List Nat) : List Nat :=
  (counts ++ List.replicate limit 0).take (limit - 1)

/-- Counts words that are longer than the limit as ones of that length. -/
def capped (limit : Nat) (counts : List Nat) : List Nat :=
  (counts.drop (limit - 1)).foldr (· + ·) 0 :: (shorterWords limit counts).reverse

/--
Takes one of the longest words below the first length away and puts two words one bit longer in
its place; `above` is the number of words of the first length.
-/
def lend (above : Nat) : List Nat → List Nat
  | [] => [above]
  | 0 :: shorter => above :: lend 0 shorter
  | (count + 1) :: shorter => (above + 2) :: count :: shorter

def freePlace : List Nat → List Nat
  | [] => []
  | longest :: shorter => lend (longest - 1) shorter

/-- How many words there are of each length up to the limit. -/
def limitedCounts (limit : Nat) (counts : List Nat) : List Nat :=
  let counts := capped limit counts
  Nat.repeat freePlace (placesTaken counts - Nat.pow 2 limit) counts

def descending : Nat → List Nat → List Nat
  | _, [] => []
  | length, count :: counts => List.replicate count length ++ descending (length - 1) counts

def assign (values : List Nat) (pairs : List (Nat × Nat)) : List Nat :=
  pairs.foldl (fun values (place, value) => values.set place value) values

/-- The weights of the symbols that occur, in ascending order, with the symbols. -/
def byWeight (weights : List Nat) : List (Nat × Nat) :=
  (weights.zipIdx.filter fun (weight, _) => 0 < weight).mergeSort
    fun (first, _) (second, _) => first ≤ second

/-- For each symbol the length of its word, given how often it occurs; zero if it does not. -/
def wordLengths (limit : Nat) (weights : List Nat) : List Nat :=
  let used := byWeight weights
  let lengths := descending limit (limitedCounts limit (depthCounts (used.map Prod.fst)))
  assign (List.replicate weights.length 0) ((used.map Prod.snd).zip lengths)

end HeapSampler.Gzip
