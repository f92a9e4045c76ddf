/-!
# Edit distance

The distance between two texts is the number of single characters to insert, delete or
replace to get from one to the other. It is computed row by row: the row of a text
holds its distances to every initial segment of the other. The longer text gives the rows, which
are then as short as they can be.

## Main definitions

* `tableCorner`: the last entry of the table of two texts
* `editDistance`: the distance between two texts
-/

namespace NibbleAsm.Text

/-- The rest of the row of a text that ends in `c`: `left` is the entry just found, and the
pairs hold each character of the other text with the entries above it. -/
def editRow (c : Char) (left : Nat) (out : List Nat) : List Char → List Nat → List Nat
  | d :: other, diagonal :: above :: row =>
    let entry := if c = d then diagonal else 1 + min diagonal (min above left)
    editRow c entry (entry :: out) other (above :: row)
  | _, _ => out.reverse

/-- The row of a text one character longer, ending in `c`, from the row of the shorter. -/
def nextRow (other : List Char) (row : List Nat) (c : Char) : List Nat :=
  let first := row.headD 0 + 1
  editRow c first [first] other row

/-- The last entry of the table that has a row for each initial segment of the first text and a
column for each of the second. -/
def tableCorner (s t : String) : Nat :=
  (s.toList.foldl (nextRow t.toList) (List.range (t.length + 1))).getLastD 0

/-- The number of insertions, deletions and replacements between two texts. -/
def editDistance (s t : String) : Nat :=
  if s.length < t.length then tableCorner t s else tableCorner s t

end NibbleAsm.Text
