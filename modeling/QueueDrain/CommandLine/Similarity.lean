/-!
# Similar words

How alike two words are: characters match if they are equal and stand no further apart than half the
length of the longer word; the measure counts matches in both words and matches in the same order.

## Main definitions

* `Similarity.matched` — the characters of one word that match, with their places in the other
* `Similarity.transpositions` — how far the matches differ in order
* `Similarity.score` — how alike two words are
* `Similarity.best?` — the candidate that is most like a word, if one is like enough
-/

namespace QueueDrain

namespace Similarity

/-- How far apart matching characters may stand. -/
def reach (a b : List Char) : Nat := max a.length b.length / 2 - 1

/-- The place of the first character of `b` that a character at place `i` matches and that is not
taken yet. -/
def place? (reach : Nat) (b : List Char) (taken : List Nat) (i : Nat) (c : Char) : Option Nat :=
  (b.zipIdx.find? fun (d, j) => c == d && i ≤ j + reach && j ≤ i + reach && !taken.contains j).map
    Prod.snd

/-- The characters of a word, from place `i` on, that match one in `b`, with its place there. -/
def matched (reach : Nat) (b : List Char) : List Nat → Nat → List Char → List (Char × Nat)
  | _, _, [] => []
  | taken, i, c :: cs =>
    match place? reach b taken i c with
    | some j => (c, j) :: matched reach b (j :: taken) (i + 1) cs
    | none => matched reach b taken (i + 1) cs

/-- Half the number of matches that come in another order in the second word. -/
def transpositions (b : List Char) (pairs : List (Char × Nat)) : Nat :=
  let places := pairs.map Prod.snd
  let inOrder := (b.zipIdx.filter fun (_, j) => places.contains j).map Prod.fst
  (((pairs.map Prod.fst).zip inOrder).filter fun (c, d) => c != d).length / 2

/-- The mean of three shares as a numerator and a denominator: of matches in the first word, of
matches in the second, and of matches in the same order among all matches. -/
def score (a b : List Char) : Nat × Nat :=
  let found := matched (reach a b) b [] 0 a
  let m := found.length
  let t := transpositions b found
  let la := a.length
  let lb := b.length
  if m = 0 then (0, 1) else (m * m * (la + lb) + (m - t) * la * lb, 3 * la * lb * m)

/-- Whether a score is above seven tenths, so that the words may be taken for each other. -/
def isHigh (score : Nat × Nat) : Bool := 7 * score.2 < 10 * score.1

/-- Of the candidates whose name is like a word, the one with the highest score, and of two the
later. -/
def best? {α : Type} (name : α → List Char) (word : List Char) (candidates : List α) : Option α :=
  let scored := (candidates.map fun a => (a, score word (name a))).filter fun p => isHigh p.2
  let better (best : Option (α × Nat × Nat)) (p : α × Nat × Nat) : Option (α × Nat × Nat) :=
    match best with
    | some b => if b.2.1 * p.2.2 ≤ p.2.1 * b.2.2 then some p else some b
    | none => some p
  (scored.foldl better none).map Prod.fst

end Similarity

end QueueDrain
