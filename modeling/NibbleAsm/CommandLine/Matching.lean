/-!
# Close matches

A misspelt option is answered with the options most like it. The likeness of two texts is
twice the number of characters they share over the sum of their lengths, where shared
characters are found by taking the longest common run and then, in the same way, those on
both sides of it.

## Main definitions

* `sharedCount`: the number of shared characters
* `closeMatches`: the three candidates most like a word
-/

namespace NibbleAsm.CommandLine

/-- The length of the longest common start of two lists. -/
def commonStart : List Char → List Char → Nat
  | a :: as, b :: bs => if a = b then commonStart as bs + 1 else 0
  | _, _ => 0

/-- A common run: where it starts in either list, and its length. -/
structure CommonRun where
  left : Nat
  right : Nat
  length : Nat

/-- The longest common run of two lists, the leftmost in the first list and then in the
second if several are as long. -/
def longestRun (xs ys : List Char) : CommonRun :=
  (List.range xs.length).foldl (fun best i =>
    (List.range ys.length).foldl (fun best j =>
      let length := commonStart (xs.drop i) (ys.drop j)
      if length > best.length then ⟨i, j, length⟩ else best) best) ⟨0, 0, 0⟩

/-- The number of characters in common runs; `fuel` bounds how often the lists are divided. -/
def sharedWithin : Nat → List Char → List Char → Nat
  | 0, _, _ => 0
  | fuel + 1, xs, ys =>
    let run := longestRun xs ys
    if run.length = 0 then 0
    else
      sharedWithin fuel (xs.take run.left) (ys.take run.right) + run.length +
        sharedWithin fuel (xs.drop (run.left + run.length)) (ys.drop (run.right + run.length))

/-- The number of characters that two texts share. -/
def sharedCount (s t : String) : Nat :=
  sharedWithin s.length s.toList t.toList

/-- A candidate with its likeness to a word: shared characters over the sum of lengths. -/
structure Likeness where
  shared : Nat
  total : Nat
  text : String

/-- Whether a likeness is at least another; the later text wins among equals. -/
def Likeness.atLeast (a b : Likeness) : Bool :=
  let left := a.shared * b.total
  let right := b.shared * a.total
  left > right || (left == right && b.text ≤ a.text)

/-- The at most three candidates whose likeness to a word is at least three fifths, in the
order of their texts. Texts much longer than a candidate are never like it. -/
def closeMatches (word : String) (candidates : List String) : List String :=
  let near := candidates.filter fun c =>
    10 * min c.length word.length ≥ 3 * (c.length + word.length)
  let compared := near.map fun c =>
    (⟨sharedCount c word, c.length + word.length, c⟩ : Likeness)
  let likely := compared.filter fun l => 10 * l.shared ≥ 3 * l.total
  (((likely.mergeSort Likeness.atLeast).take 3).map Likeness.text).mergeSort fun a b =>
    decide (a ≤ b)

end NibbleAsm.CommandLine
