import NibbleAsm.Text.Numeral
import Mathlib.Data.List.Basic

/-!
# Joined texts and shown numbers

Rows of output are texts that are joined by a separator, and most of these texts are numbers in
hexadecimal. A character that is in neither the separator nor the parts is not in the whole, and a
number has no characters but its digits and a sign.

## Main results

* `Text.join_cons_cons`, `Text.join_concat`: a text joined at the front and at the end
* `Text.not_mem_join`: the characters of joined texts
* `Text.not_mem_hex4`: the characters of a number with four places
-/

namespace NibbleAsm.Text

/-! ## Joined texts -/

theorem join_cons_cons (separator word next : String) (rest : List String) :
    join separator (word :: next :: rest) = word ++ separator ++ join separator (next :: rest) := by
  rw [← String.toList_inj, join, join, String.toList_intercalate, String.toList_append,
    String.toList_append, String.toList_intercalate, List.map_cons, List.map_cons,
    List.intercalate_cons_cons, List.append_assoc]

theorem join_concat {parts : List String} (nonempty : parts ≠ []) (separator part : String) :
    join separator (parts ++ [part]) = join separator parts ++ separator ++ part := by
  induction parts with
  | nil => exact absurd rfl nonempty
  | cons first rest ih =>
    cases rest with
    | nil => exact join_cons_cons separator first part []
    | cons next rest =>
      rw [List.cons_append, List.cons_append, join_cons_cons, join_cons_cons, ← List.cons_append,
        ih (List.cons_ne_nil _ _)]
      simp only [String.append_assoc]

theorem not_mem_join {separator : String} {parts : List String} {c : Char}
    (hseparator : c ∉ separator.toList) (hparts : ∀ part ∈ parts, c ∉ part.toList) :
    c ∉ (join separator parts).toList := by
  induction parts with
  | nil =>
    rw [join, String.toList_intercalate]
    exact List.not_mem_nil
  | cons part rest ih =>
    obtain ⟨hpart, hrest⟩ := List.forall_mem_cons.mp hparts
    cases rest with
    | nil =>
      rw [join, String.toList_intercalate]
      simpa using hpart
    | cons next rest =>
      rw [join_cons_cons, String.toList_append, String.toList_append]
      simp only [List.mem_append, not_or]
      exact ⟨⟨hpart, hseparator⟩, ih hrest⟩

/-! ## Numbers in hexadecimal -/

/-- The digits of a hexadecimal number. -/
theorem mem_toDigits_sixteen {n : Nat} {c : Char} (h : c ∈ Nat.toDigits 16 n) :
    ∃ d < 16, c = Nat.digitChar d := by
  induction n using Nat.strongRecOn with
  | ind n ih =>
    rw [Nat.toDigits_eq_if (by decide)] at h
    split at h
    · next hn => exact ⟨n, hn, List.mem_singleton.mp h⟩
    · next hn =>
      rcases List.mem_append.mp h with h | h
      · exact ih (n / 16) (by omega) h
      · exact ⟨n % 16, Nat.mod_lt _ (by decide), List.mem_singleton.mp h⟩

/-- A number has no characters but its digits and a sign. -/
theorem not_mem_hex4 {c : Char} (hdigit : ∀ d < 16, (Nat.digitChar d).toUpper ≠ c)
    (hsign : c ≠ '-') (n : Int) : c ∉ (hex4 n).toList := by
  have hdigits : c ∉ (hexDigits n.natAbs).toList := by
    rw [hexDigits, String.toList_ofList, List.mem_map]
    rintro ⟨digit, hmem, hup⟩
    obtain ⟨d, hd, rfl⟩ := mem_toDigits_sixteen hmem
    exact hdigit d hd hup
  have hpad (width : Nat) : c ∉ (padLeft '0' width (hexDigits n.natAbs)).toList := by
    rw [padLeft, String.toList_append, String.toList_ofList, List.mem_append, List.mem_replicate]
    rintro (⟨-, rfl⟩ | h)
    · exact hdigit 0 (by decide) rfl
    · exact hdigits h
  unfold hex4
  split
  · rw [String.toList_append, List.mem_append]
    rintro (h | h)
    · exact hsign (List.mem_singleton.mp h)
    · exact hpad 3 h
  · exact hpad 4

end NibbleAsm.Text
