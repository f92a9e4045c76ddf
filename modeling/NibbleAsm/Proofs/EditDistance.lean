import NibbleAsm.Text.EditDistance
import Mathlib.Data.List.Basic
import Mathlib.Order.Bounds.Basic

/-!
# The distance between texts counts edits

An edit inserts, deletes or replaces one character. The distance between two texts is the least
number of edits that lead from one to the other, so it is a metric. Edits may come in any order and
undo each other; the table of distances knows only alignments, in which each character is dealt with
once. No sequence of edits beats the best alignment, since one edit changes the cost of aligning a
text with others by one at most.

## Main definitions

* `Edit`, `Edits`: one edit of a text, and a number of them
* `alignCost`: the cost of the best alignment of two texts
* `rowFrom`: a row of the table of distances, from some entry on

## Main results

* `alignCost_cons_self`: to align equal characters is never worse
* `Edits.alignCost_le`, `edits_alignCost`: the best alignment takes the fewest edits
* `nextRow_rowFrom`, `foldl_nextRow`: the rows of the table hold the costs of alignments
* `tableCorner_comm`: either text may give the rows of the table
* `edits_editDistance`, `editDistance_le`: the distance is a number of edits, and the least
* `editDistance_isLeast`: the distance counts edits, and it is a metric
-/

namespace NibbleAsm.Text

variable {m n : Nat} {s t u : List Char}

/-! ## Edits -/

/-- One edit: somewhere in a text, a character is inserted, deleted or replaced. -/
inductive Edit : List Char → List Char → Prop
  | insert (before after : List Char) (c : Char) : Edit (before ++ after) (before ++ c :: after)
  | delete (before after : List Char) (c : Char) : Edit (before ++ c :: after) (before ++ after)
  | replace (before after : List Char) (c d : Char) :
    Edit (before ++ c :: after) (before ++ d :: after)

namespace Edit

theorem symm (h : Edit s t) : Edit t s := by
  cases h with
  | insert before after c => exact .delete before after c
  | delete before after c => exact .insert before after c
  | replace before after c d => exact .replace before after d c

theorem cons (h : Edit s t) (a : Char) : Edit (a :: s) (a :: t) := by
  cases h with
  | insert before after c => exact .insert (a :: before) after c
  | delete before after c => exact .delete (a :: before) after c
  | replace before after c d => exact .replace (a :: before) after c d

theorem reverse (h : Edit s t) : Edit s.reverse t.reverse := by
  cases h with
  | insert before after c => simpa using Edit.insert after.reverse before.reverse c
  | delete before after c => simpa using Edit.delete after.reverse before.reverse c
  | replace before after c d => simpa using Edit.replace after.reverse before.reverse c d

theorem length_le (h : Edit s t) : t.length ≤ s.length + 1 := by
  cases h <;> simp only [List.length_append, List.length_cons] <;> omega

end Edit

/-- A number of edits, one after the other, that lead from a text to another. -/
inductive Edits : Nat → List Char → List Char → Prop
  | refl (s : List Char) : Edits 0 s s
  | tail {n : Nat} {s t u : List Char} : Edits n s t → Edit t u → Edits (n + 1) s u

namespace Edits

theorem trans (hst : Edits m s t) (htu : Edits n t u) : Edits (m + n) s u := by
  induction htu with
  | refl => exact hst
  | tail _ hlast ih => exact .tail (ih hst) hlast

theorem head (h : Edit s t) (hrest : Edits n t u) : Edits (n + 1) s u := by
  rw [Nat.add_comm]
  exact trans (.tail (.refl s) h) hrest

theorem symm (h : Edits n s t) : Edits n t s := by
  induction h with
  | refl s => exact .refl s
  | tail _ hlast ih => exact ih.head hlast.symm

theorem cons (h : Edits n s t) (a : Char) : Edits n (a :: s) (a :: t) := by
  induction h with
  | refl s => exact .refl _
  | tail _ hlast ih => exact ih.tail (hlast.cons a)

theorem reverse (h : Edits n s t) : Edits n s.reverse t.reverse := by
  induction h with
  | refl s => exact .refl _
  | tail _ hlast ih => exact ih.tail hlast.reverse

theorem length_le (h : Edits n s t) : t.length ≤ s.length + n := by
  induction h with
  | refl s => exact Nat.le_refl _
  | tail _ hlast ih => exact hlast.length_le.trans (Nat.add_le_add_right ih 1)

theorem zero_iff : Edits 0 s t ↔ s = t := by
  constructor
  · intro h
    cases h
    rfl
  · rintro rfl
    exact .refl s

theorem min (hm : Edits m s t) (hn : Edits n s t) : Edits (min m n) s t := by
  rcases Nat.le_total m n with h | h
  · rwa [Nat.min_eq_left h]
  · rwa [Nat.min_eq_right h]

theorem of_nil (t : List Char) : Edits t.length [] t := by
  induction t with
  | nil => exact .refl []
  | cons c t ih => exact ih.tail (.insert [] t c)

end Edits

/-! ## Alignments -/

/-- The cost of the best alignment of two texts. The first characters are put above each other,
which is free if they are equal, or one of them is put above or below a gap. -/
def alignCost : List Char → List Char → Nat
  | [], t => t.length
  | s, [] => s.length
  | c :: s, d :: t =>
    min (alignCost s t + if c = d then 0 else 1)
      (min (alignCost s (d :: t) + 1) (alignCost (c :: s) t + 1))
  termination_by s t => s.length + t.length

@[simp] theorem alignCost_nil_left (t : List Char) : alignCost [] t = t.length := by
  rw [alignCost]

@[simp] theorem alignCost_nil_right (s : List Char) : alignCost s [] = s.length := by
  cases s <;> simp [alignCost]

theorem alignCost_cons_cons (c d : Char) (s t : List Char) :
    alignCost (c :: s) (d :: t) = min (alignCost s t + if c = d then 0 else 1)
      (min (alignCost s (d :: t) + 1) (alignCost (c :: s) t + 1)) := by
  rw [alignCost]

theorem alignCost_comm (s t : List Char) : alignCost s t = alignCost t s := by
  fun_induction alignCost s t with
  | case1 t => rw [alignCost_nil_right]
  | case2 s => rw [alignCost_nil_left]
  | case3 c s d t hpair habove hbelow =>
    rw [alignCost_cons_cons, hpair, habove, hbelow, min_comm (alignCost (d :: t) s + 1)]
    simp only [eq_comm]

/-- A character more costs one gap at most. -/
theorem alignCost_cons_right_le (s : List Char) (d : Char) (t : List Char) :
    alignCost s (d :: t) ≤ alignCost s t + 1 := by
  cases s with
  | nil => simp
  | cons c s =>
    rw [alignCost_cons_cons]
    exact (min_le_right _ _).trans (min_le_right _ _)

theorem alignCost_cons_left_le (c : Char) (s t : List Char) :
    alignCost (c :: s) t ≤ alignCost s t + 1 := by
  rw [alignCost_comm, alignCost_comm s]
  exact alignCost_cons_right_le t c s

/-- A character saves one gap at most. -/
theorem alignCost_le_cons_right (s : List Char) (d : Char) (t : List Char) :
    alignCost s t ≤ alignCost s (d :: t) + 1 := by
  induction s with
  | nil => simp only [alignCost_nil_left, List.length_cons]; omega
  | cons c s ih =>
    -- without `d`, its partner or the character that it replaces stands above a gap
    have hgap := alignCost_cons_left_le c s t
    rw [alignCost_cons_cons]
    omega

theorem alignCost_le_cons_left (c : Char) (s t : List Char) :
    alignCost s t ≤ alignCost (c :: s) t + 1 := by
  rw [alignCost_comm, alignCost_comm (c :: s)]
  exact alignCost_le_cons_right t c s

/-- **To align equal characters is never worse** than to put one of them above a gap. -/
theorem alignCost_cons_self (c : Char) (s t : List Char) :
    alignCost (c :: s) (c :: t) = alignCost s t := by
  have hright := alignCost_le_cons_right s c t
  have hleft := alignCost_le_cons_left c s t
  rw [alignCost_cons_cons, if_pos rfl]
  omega

theorem alignCost_self (s : List Char) : alignCost s s = 0 := by
  induction s with
  | nil => simp
  | cons c s ih => rw [alignCost_cons_self, ih]

theorem alignCost_cons_of_ne {c d : Char} (h : c ≠ d) (s t : List Char) :
    alignCost (c :: s) (d :: t) =
      1 + min (alignCost s t) (min (alignCost s (d :: t)) (alignCost (c :: s) t)) := by
  rw [alignCost_cons_cons, if_neg h]
  omega

/-- Another character in front costs one replacement at most. -/
theorem alignCost_replace_le (s : List Char) (c d : Char) (t : List Char) :
    alignCost s (d :: t) ≤ alignCost s (c :: t) + 1 := by
  induction s with
  | nil => simp
  | cons b s ih =>
    rw [alignCost_cons_cons, alignCost_cons_cons]
    split <;> split <;> omega

/-- If a text costs at most one more than another, whatever it is aligned with, then this also holds
with the same characters in front of both. -/
theorem alignCost_append_le (h : ∀ s, alignCost s u ≤ alignCost s t + 1) (before : List Char) :
    ∀ s, alignCost s (before ++ u) ≤ alignCost s (before ++ t) + 1 := by
  induction before with
  | nil => exact h
  | cons a before ih =>
    intro s
    rw [List.cons_append, List.cons_append]
    -- if `a` stays in front, the text to align with gets shorter, hence the second induction
    induction s with
    | nil => simpa using ih []
    | cons c s ihs =>
      have hrest := ih s
      have hwhole := ih (c :: s)
      rw [alignCost_cons_cons, alignCost_cons_cons]
      omega

/-- **One edit changes the cost of an alignment by one at most.** -/
theorem Edit.alignCost_le (h : Edit t u) (s : List Char) : alignCost s u ≤ alignCost s t + 1 := by
  cases h with
  | insert before after c => exact alignCost_append_le (alignCost_cons_right_le · c after) before s
  | delete before after c => exact alignCost_append_le (alignCost_le_cons_right · c after) before s
  | replace before after c d =>
    exact alignCost_append_le (alignCost_replace_le · c d after) before s

theorem Edits.alignCost_le (h : Edits n s t) : alignCost s t ≤ n := by
  induction h with
  | refl s => exact (alignCost_self s).le
  | tail _ hlast ih => exact (hlast.alignCost_le _).trans (Nat.add_le_add_right ih 1)

/-- The best alignment is read as edits, one for each unit of its cost. -/
theorem edits_alignCost (s t : List Char) : Edits (alignCost s t) s t := by
  fun_induction alignCost s t with
  | case1 t => exact .of_nil t
  | case2 s => exact (Edits.of_nil s).symm
  | case3 c s d t hpair habove hbelow =>
    have pair : Edits (alignCost s t + if c = d then 0 else 1) (c :: s) (d :: t) := by
      split
      next h => exact h ▸ hpair.cons c
      next => exact (hpair.cons c).tail (.replace [] t c d)
    have above : Edits (alignCost s (d :: t) + 1) (c :: s) (d :: t) := habove.head (.delete [] s c)
    have below : Edits (alignCost (c :: s) t + 1) (c :: s) (d :: t) := hbelow.tail (.insert [] t d)
    exact pair.min (above.min below)

/-! ## The table of distances -/

/-- A row of the table from some entry on: the costs of aligning `p` with `q`, and with `q` and more
and more of the characters that follow it. Both `p` and `q` are given last character first, since
they grow at their ends. -/
def rowFrom (p q : List Char) : List Char → List Nat
  | [] => [alignCost p q]
  | d :: rest => alignCost p q :: rowFrom p (d :: q) rest

theorem rowFrom_eq_cons (p q rest : List Char) :
    rowFrom p q rest = alignCost p q :: (rowFrom p q rest).tail := by
  cases rest <;> rfl

/-- From an entry and the row above, the rest of a row is found. -/
theorem editRow_rowFrom (c : Char) (p q rest : List Char) (out : List Nat) :
    editRow c (alignCost (c :: p) q) out rest (rowFrom p q rest) =
      out.reverse ++ (rowFrom (c :: p) q rest).tail := by
  induction rest generalizing q out with
  | nil => simp [editRow, rowFrom]
  | cons d rest ih =>
    -- the next entry comes from those above to the left, above, and to the left of it
    have hentry : (if c = d then alignCost p q
        else 1 + min (alignCost p q) (min (alignCost p (d :: q)) (alignCost (c :: p) q))) =
        alignCost (c :: p) (d :: q) := by
      split
      next h => rw [← h, alignCost_cons_self]
      next h => rw [alignCost_cons_of_ne h]
    rw [rowFrom, rowFrom_eq_cons p (d :: q), editRow, hentry, ← rowFrom_eq_cons, ih, rowFrom,
      List.tail_cons, rowFrom_eq_cons (c :: p) (d :: q), List.reverse_cons, List.append_assoc]
    rfl

/-- **One step of the table**: a character more gives the next row. -/
theorem nextRow_rowFrom (c : Char) (p other : List Char) :
    nextRow other (rowFrom p [] other) c = rowFrom (c :: p) [] other := by
  have hfirst : (rowFrom p [] other).headD 0 + 1 = alignCost (c :: p) [] := by
    rw [rowFrom_eq_cons]
    simp
  rw [nextRow, hfirst, editRow_rowFrom]
  exact (rowFrom_eq_cons _ _ _).symm

/-- **A run of the table** ends with the row of the whole text. -/
theorem foldl_nextRow (s p other : List Char) :
    s.foldl (nextRow other) (rowFrom p [] other) = rowFrom (s.reverse ++ p) [] other := by
  induction s generalizing p with
  | nil => rfl
  | cons c s ih =>
    rw [List.foldl_cons, nextRow_rowFrom, ih, List.reverse_cons, List.append_assoc]
    rfl

/-- The first row is that of the empty text, which takes an insertion for each character. -/
theorem range'_eq_rowFrom (q rest : List Char) :
    List.range' q.length (rest.length + 1) = rowFrom [] q rest := by
  induction rest generalizing q with
  | nil => simp [rowFrom]
  | cons d rest ih =>
    rw [rowFrom, ← ih, List.length_cons, List.range'_succ, alignCost_nil_left]
    rfl

theorem getLastD_rowFrom (p q rest : List Char) (default : Nat) :
    (rowFrom p q rest).getLastD default = alignCost p (rest.reverse ++ q) := by
  induction rest generalizing q default with
  | nil => rfl
  | cons d rest ih =>
    rw [rowFrom, List.getLastD_cons, ih, List.reverse_cons, List.append_assoc]
    rfl

/-- The last entry of the last row is the cost of aligning the texts from their ends. -/
theorem tableCorner_eq (a b : String) :
    tableCorner a b = alignCost a.toList.reverse b.toList.reverse := by
  have hstart : List.range (b.length + 1) = rowFrom [] [] b.toList := by
    rw [← range'_eq_rowFrom, List.range_eq_range']
    rfl
  rw [tableCorner, hstart, foldl_nextRow, getLastD_rowFrom, List.append_nil, List.append_nil]

/-- It does not matter which of the texts gives the rows. -/
theorem tableCorner_comm (a b : String) : tableCorner a b = tableCorner b a := by
  rw [tableCorner_eq, tableCorner_eq, alignCost_comm]

theorem editDistance_eq (a b : String) :
    editDistance a b = alignCost a.toList.reverse b.toList.reverse := by
  rw [editDistance, tableCorner_comm b a, ite_self, tableCorner_eq]

/-! ## The distance -/

theorem edits_editDistance (a b : String) : Edits (editDistance a b) a.toList b.toList := by
  have h := (edits_alignCost a.toList.reverse b.toList.reverse).reverse
  rwa [List.reverse_reverse, List.reverse_reverse, ← editDistance_eq] at h

theorem editDistance_le {a b : String} (h : Edits n a.toList b.toList) : editDistance a b ≤ n := by
  rw [editDistance_eq]
  exact h.reverse.alignCost_le

/-- **The distance between two texts is the least number of edits that lead from one to the other.**
So it is the same in both directions, it is zero exactly between equal texts, and a text on the way
makes it no shorter. -/
theorem editDistance_isLeast (a b c : String) :
    IsLeast {n | Edits n a.toList b.toList} (editDistance a b) ∧
    editDistance a b = editDistance b a ∧
    (editDistance a b = 0 ↔ a = b) ∧
    editDistance a c ≤ editDistance a b + editDistance b c := by
  refine ⟨⟨edits_editDistance a b, fun n => editDistance_le⟩, ?_, ?_, ?_⟩
  · apply le_antisymm
    · exact editDistance_le (edits_editDistance b a).symm
    · exact editDistance_le (edits_editDistance a b).symm
  · constructor
    · intro h
      exact String.toList_injective (Edits.zero_iff.mp (h ▸ edits_editDistance a b))
    · rintro rfl
      exact Nat.le_zero.mp (editDistance_le (.refl _))
  · exact editDistance_le ((edits_editDistance a b).trans (edits_editDistance b c))

end NibbleAsm.Text
