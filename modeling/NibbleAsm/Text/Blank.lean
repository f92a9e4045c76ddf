import NibbleAsm.Text.Ranges

/-!
# Blank characters and words

Source text is divided into words by runs of blank characters: the spaces of every
script, the line breaks and the ASCII separator controls.

## Main definitions

* `isBlank`: the blank characters
* `trimRight`, `trim`: text without its trailing, and without its outer blanks
* `words`: the maximal runs of characters that are not blank
* `firstWord`: the first word, and what follows the blanks after it
* `before`, `cutAt`: text before and around the first occurrence of a character
-/

namespace NibbleAsm.Text

/-- The blank characters, as ranges of code points. -/
def blankRanges : List (Nat × Nat) :=
  [(0x09, 0x0D), (0x1C, 0x20), (0x85, 0x85), (0xA0, 0xA0), (0x1680, 0x1680), (0x2000, 0x200A),
   (0x2028, 0x2029), (0x202F, 0x202F), (0x205F, 0x205F), (0x3000, 0x3000)]

/-- Whether a character separates words. -/
def isBlank (c : Char) : Bool :=
  inRanges blankRanges c

/-- A list without the longest tail on which `p` holds. -/
def dropTail {α : Type} (p : α → Bool) (xs : List α) : List α :=
  (xs.reverse.dropWhile p).reverse

/-- Text without its trailing blanks. -/
def trimRight (s : String) : String :=
  String.ofList (dropTail isBlank s.toList)

/-- Text without its outer blanks. -/
def trim (s : String) : String :=
  String.ofList (dropTail isBlank (s.toList.dropWhile isBlank))

/-- The parts of a text between the characters of a class have no characters of the class. The first
part may start with characters `acc` from before. -/
theorem mem_of_mem_splitOnPPrepend {p : Char → Bool} {cs acc w : List Char}
    (hw : w ∈ cs.splitOnPPrepend p acc) : ∀ c ∈ w, c ∈ acc ∨ (p c = false ∧ c ∈ cs) := by
  -- on the characters left, with the part that is being read as `acc`
  intro c hc
  induction cs generalizing acc with
  | nil =>
    rw [List.splitOnPPrepend_nil, List.mem_singleton] at hw
    subst hw
    exact .inl (List.mem_reverse.mp hc)
  | cons x xs ih =>
    cases hx : p x with
    | true =>
      -- such a character ends the part, and the next one starts with nothing
      rw [List.splitOnPPrepend_cons_pos hx] at hw
      rcases List.mem_cons.mp hw with rfl | hw
      · exact .inl (List.mem_reverse.mp hc)
      · obtain ⟨hp, hmem⟩ := (ih hw).resolve_left List.not_mem_nil
        exact .inr ⟨hp, List.mem_cons_of_mem _ hmem⟩
    | false =>
      rw [List.splitOnPPrepend_cons_neg hx] at hw
      rcases ih hw with hmem | ⟨hp, hmem⟩
      · rcases List.mem_cons.mp hmem with rfl | hmem
        · exact .inr ⟨hx, List.mem_cons_self⟩
        · exact .inl hmem
      · exact .inr ⟨hp, List.mem_cons_of_mem _ hmem⟩

/-- The words of a text, in order. -/
def words (s : String) : List String :=
  ((s.toList.splitOnP isBlank).filter fun w => !w.isEmpty).map String.ofList

/-- The first word of a text, and what follows the blanks after it. -/
def firstWord (s : String) : String × String :=
  let start := s.toList.dropWhile isBlank
  (String.ofList (start.takeWhile fun c => !isBlank c),
    String.ofList ((start.dropWhile fun c => !isBlank c).dropWhile isBlank))

/-- The part of a text before the first occurrence of a character, or all of it. -/
def before (mark : Char) (s : String) : String :=
  String.ofList (s.toList.takeWhile (· ≠ mark))

/-- The parts of a text before and after the first occurrence of a character;
the second is `none` when the character does not occur. -/
def cutAt (mark : Char) (s : String) : String × Option String :=
  (before mark s,
    match s.toList.dropWhile (· ≠ mark) with
    | [] => none
    | _ :: rest => some (String.ofList rest))

/-- Whether a text starts with a character. -/
def startsWith (mark : Char) (s : String) : Bool :=
  s.toList.head? == some mark

end NibbleAsm.Text
