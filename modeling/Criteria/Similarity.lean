/-!
# Similar words

How alike two words are is measured by the characters that they share in order.  The longest block
common to both is taken first, of several the one that starts earliest in the first word and then
in the second; the words to the left of it and to the right of it are compared in the same way.
The score is the share of matched characters in both words, and a word is close to another when
the score is at least three fifths.
-/

namespace Criteria.Similarity

/-- The length of the common beginning of two words. -/
def commonStart : List Char → List Char → Nat
  | a :: as, b :: bs => if a = b then commonStart as bs + 1 else 0
  | _, _ => 0

/-- A block common to two words: where it starts in each, and its length. -/
structure Block where
  left : Nat
  right : Nat
  size : Nat
  deriving DecidableEq

namespace Block

/-- The longer of two blocks, the first when they are equally long. -/
def longer (x y : Block) : Block := if x.size < y.size then y else x

end Block

/-- The longest block that starts at the front of the first word. -/
def longestHere (left : Nat) (as : List Char) : (right : Nat) → List Char → Block
  | right, [] => ⟨left, right, 0⟩
  | right, b :: bs =>
    Block.longer ⟨left, right, commonStart as (b :: bs)⟩ (longestHere left as (right + 1) bs)

/-- The longest block common to two words. -/
def longestBlock : (left : Nat) → List Char → List Char → Block
  | left, [], _ => ⟨left, 0, 0⟩
  | left, a :: as, bs =>
    Block.longer (longestHere left (a :: as) 0 bs) (longestBlock (left + 1) as bs)

/-- The count of matched characters, for first words of at most `size` characters. -/
def matchedWithin : (size : Nat) → List Char → List Char → Nat
  | 0, _, _ => 0
  | size + 1, as, bs =>
    let block := longestBlock 0 as bs
    if block.size = 0 then 0
    else
      block.size + matchedWithin size (as.take block.left) (bs.take block.right)
        + matchedWithin size (as.drop (block.left + block.size))
            (bs.drop (block.right + block.size))

/-- The count of matched characters of two words. -/
def matched (as bs : List Char) : Nat := matchedWithin as.length as bs

/-- A candidate with its score: twice `matched` out of `total` characters. -/
structure Scored where
  word : String
  matched : Nat
  total : Nat

namespace Scored

/-- The score of a candidate for a word. -/
def ofWords (word candidate : String) : Scored :=
  ⟨candidate, Similarity.matched candidate.toList word.toList,
    candidate.length + word.length⟩

/-- Whether the score is at least three fifths.  Two empty words are alike. -/
def close (s : Scored) : Bool := 3 * s.total ≤ 10 * s.matched

/-- Whether one candidate comes before another: by score, then by word, both downwards. -/
def before (s t : Scored) : Bool :=
  t.matched * s.total < s.matched * t.total ||
    (t.matched * s.total == s.matched * t.total && t.word ≤ s.word)

end Scored

/-- The at most three candidates closest to a word, the best first. -/
def closest (word : String) (candidates : List String) : List String :=
  ((((candidates.map (Scored.ofWords word)).filter Scored.close).mergeSort Scored.before).take
    3).map Scored.word

end Criteria.Similarity
