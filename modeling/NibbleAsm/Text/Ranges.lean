/-!
# Ranges of code points

The characters of a text are Unicode scalar values. A surrogate is not one of them, so a text with
a surrogate that stands alone, which has no encoding in UTF-8 either, is left out here. Character
classes beyond ASCII are given as lists of closed ranges of code points.

## Main definitions

* `inRanges`: membership of a character in a list of ranges
-/

namespace NibbleAsm.Text

/-- Whether some range of the table holds the code point of a character. -/
def inRanges (table : List (Nat × Nat)) (c : Char) : Bool :=
  table.any fun r => r.1 ≤ c.toNat && c.toNat ≤ r.2

end NibbleAsm.Text
