/-!
# Similar texts

The similarity of two texts is twice the number of characters they have in common, in order, over
the sum of their lengths. What they have in common is found by taking the longest run that both
hold, the leftmost one if there are several, and going on left and right of it. In a text of 200
characters or more a character that makes up more than a hundredth of it starts no run.

`closeMatches` offers the texts of a list that are similar to a mistyped one.
-/

namespace RecordStore.Text.Similarity

/-- A run that two texts share: where it starts in either, and how long it is. -/
structure Run where
  left : Nat
  right : Nat
  length : Nat
  deriving Inhabited

/-- Whether a character of `word` is too frequent to start a run. -/
def isFrequent (word : List Char) (c : Char) : Bool :=
  200 ≤ word.length && word.length / 100 + 1 < word.count c

/-- The lengths of the runs that end at `c` and at each character of `word`, from those that end one
character earlier. -/
def runLengths (starts : Char → Bool) (c : Char) : Nat → List Nat → List Char → List Nat
  | _, _, [] => []
  | before, lengths, d :: word =>
    (if c = d && starts d then before + 1 else 0) ::
      runLengths starts c (lengths.headD 0) lengths.tail word

/-- The first of the lengths that is larger than the best run so far, turned into a run. -/
def improve (best : Run) (row : Nat) : Nat → List Nat → Run
  | _, [] => best
  | column, length :: rest =>
    if best.length < length then
      improve ⟨row + 1 - length, column + 1 - length, length⟩ row (column + 1) rest
    else improve best row (column + 1) rest

/-- The longest run over all rows. -/
def longestFrom (starts : Char → Bool) (word : List Char) (best : Run) :
    Nat → List Nat → List Char → Run
  | _, _, [] => best
  | row, lengths, c :: text =>
    let current := runLengths starts c 0 lengths word
    longestFrom starts word (improve best row 0 current) (row + 1) current text

/-- The number of characters that two texts share at their beginning. -/
def commonPrefix : List Char → List Char → Nat
  | a :: as, b :: bs => if a = b then commonPrefix as bs + 1 else 0
  | _, _ => 0

/-- The longest shared run, extended on both sides by characters that start none. -/
def longestRun (starts : Char → Bool) (text word : List Char) : Run :=
  let best := longestFrom starts word ⟨0, 0, 0⟩ 0 [] text
  let back := commonPrefix (text.take best.left).reverse (word.take best.right).reverse
  let forth :=
    commonPrefix (text.drop (best.left + best.length)) (word.drop (best.right + best.length))
  ⟨best.left - back, best.right - back, back + best.length + forth⟩

/-- The number of characters that two texts have in common, in order; `fuel` bounds the number of
cuts. -/
def common (starts : Char → Bool) : Nat → List Char → List Char → Nat
  | 0, _, _ => 0
  | fuel + 1, text, word =>
    let run := longestRun starts text word
    if run.length = 0 then 0
    else
      common starts fuel (text.take run.left) (word.take run.right) + run.length +
        common starts fuel (text.drop (run.left + run.length)) (word.drop (run.right + run.length))

/-- A candidate with what it has in common with the word. -/
structure Candidate where
  text : String
  shared : Nat
  total : Nat

namespace Candidate

/-- At least three fifths of the characters are shared; two empty texts are alike. -/
def isClose (c : Candidate) : Bool := c.total = 0 || 3 * c.total ≤ 10 * c.shared

/-- Whether a candidate is offered before another: the more similar one, then the one whose text is
greater. -/
def isBefore (a b : Candidate) : Bool :=
  let left := if a.total = 0 then b.total else a.shared * b.total
  let right := if b.total = 0 then a.total else b.shared * a.total
  if left = right then b.text ≤ a.text else right < left

end Candidate

/-- A text as a candidate for a word. -/
def candidate (word text : String) : Candidate :=
  let chars := word.toList
  let shared := common (fun c => !isFrequent chars c) (text.length + 1) text.toList chars
  ⟨text, shared, text.length + word.length⟩

/-- The up to three texts most similar to `word`, the most similar one first. -/
def closeMatches (word : String) (texts : List String) : List String :=
  let close := (texts.map (candidate word)).filter Candidate.isClose
  ((close.mergeSort Candidate.isBefore).take 3).map Candidate.text

end RecordStore.Text.Similarity
