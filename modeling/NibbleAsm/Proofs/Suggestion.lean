import NibbleAsm.Proofs.EditDistance
import NibbleAsm.Symbol.Table

/-!
# Suggestions are near names

Names are suggested for a name that is one edit away at most, with both in lower case. Before the
distance is found, the lengths of the names as they are written are compared, and a name that is
much longer or shorter is passed over. Lower case keeps the length of every text without a capital I
with a dot above, the one character that becomes two, so a near name can only be passed over if it
has more or fewer of these.

## Main definitions

* `SymbolTable.IsNear`: names that are one edit apart in lower case
* `SymbolTable.IsOverlooked`: names that are passed over for their lengths

## Main results

* `Text.length_lower`: the length of a text in lower case
* `SymbolTable.resembles_iff`: which names are suggested
* `SymbolTable.similar_near`: the suggestions are the first three near names, unless these differ
  in dotted capitals
-/

namespace NibbleAsm

/-! ## Lower case and length -/

namespace Text

theorem length_lowerChar (c : Char) : (lowerChar c).length = if c = 'İ' then 2 else 1 := by
  split
  next h =>
    rw [h]
    rfl
  next h =>
    have hspecial : lowerSpecials.lookup c.toNat = none := by
      have hcode : c.toNat ≠ 0x130 := fun hc => h (Char.toNat_inj.mp hc)
      rw [lowerSpecials, List.lookup_cons, beq_eq_false_iff_ne.mpr hcode]
      rfl
    unfold lowerChar mapCase?
    rw [hspecial]
    split
    · rfl
    · cases CaseRun.find? lowerRuns c.toNat <;> rfl

theorem length_lowerAfter (left out cs : List Char) :
    (lowerAfter left out cs).length = out.length + cs.length + cs.count 'İ' := by
  induction cs generalizing left out with
  | nil => simp [lowerAfter]
  | cons c cs ih =>
    -- both forms of a small sigma are one character
    have himage : (if c = 'Σ' then (if casedNext left && !casedNext cs then ['ς'] else ['σ'])
        else lowerChar c).length = if c = 'İ' then 2 else 1 := by
      by_cases hc : c = 'Σ'
      · subst hc
        rw [if_pos rfl]
        split <;> rfl
      · rw [if_neg hc, length_lowerChar]
    rw [lowerAfter, ih, List.length_append, List.length_reverse, himage, List.length_cons,
      List.count_cons]
    simp only [beq_iff_eq]
    split <;> omega

/-- Lower case adds a character for every capital I with a dot above. -/
theorem length_lower (s : String) : (lower s).length = s.length + s.toList.count 'İ' := by
  rw [lower, String.length_ofList, length_lowerAfter, List.length_nil, Nat.zero_add,
    String.length_toList]

end Text

/-! ## Near names -/

namespace SymbolTable

variable {name other : String}

/-- Names that are equal or one edit apart, in lower case. -/
def IsNear (name other : String) : Prop :=
  Text.editDistance (Text.lower name) (Text.lower other) ≤ 1

instance (name other : String) : Decidable (IsNear name other) :=
  inferInstanceAs (Decidable (_ ≤ _))

/-- Names whose distance is not looked at: they differ in lower case, and their lengths, as they are
written, differ by more than one. -/
def IsOverlooked (name other : String) : Prop :=
  Text.lower other ≠ Text.lower name ∧
    (name.length + 1 < other.length ∨ other.length + 1 < name.length)

instance (name other : String) : Decidable (IsOverlooked name other) :=
  inferInstanceAs (Decidable (_ ∧ _))

/-- The suggested names are the near names that are not overlooked. -/
theorem resembles_iff : resembles name other ↔ IsNear name other ∧ ¬ IsOverlooked name other := by
  unfold IsNear IsOverlooked
  simp only [resembles, Bool.or_eq_true, Bool.and_eq_true, beq_iff_eq, decide_eq_true_eq]
  constructor
  · rintro (heq | ⟨⟨hlong, hshort⟩, hnear⟩)
    · rw [heq]
      have hzero : Text.editDistance (Text.lower name) (Text.lower name) ≤ 0 :=
        Text.editDistance_le (.refl _)
      exact ⟨hzero.trans (Nat.zero_le 1), fun h => h.1 rfl⟩
    · exact ⟨hnear, fun h => by omega⟩
  · rintro ⟨hnear, hseen⟩
    by_cases heq : Text.lower other = Text.lower name
    · exact .inl heq
    · have hlengths : ¬ (name.length + 1 < other.length ∨ other.length + 1 < name.length) :=
        fun h => hseen ⟨heq, h⟩
      exact .inr ⟨by omega, hnear⟩

/-- In lower case, the lengths of near names differ by one at most. -/
theorem IsNear.length_lower_le (h : IsNear name other) :
    (Text.lower other).length ≤ (Text.lower name).length + 1 ∧
      (Text.lower name).length ≤ (Text.lower other).length + 1 := by
  have hedits := Text.edits_editDistance (Text.lower name) (Text.lower other)
  exact ⟨hedits.length_le.trans (Nat.add_le_add_left h _),
    hedits.symm.length_le.trans (Nat.add_le_add_left h _)⟩

/-- A near name with as many dotted capitals is not overlooked. -/
theorem IsNear.not_isOverlooked (h : IsNear name other)
    (dotted : other.toList.count 'İ' = name.toList.count 'İ') : ¬ IsOverlooked name other := by
  have hlengths := h.length_lower_le
  rw [Text.length_lower, Text.length_lower, dotted] at hlengths
  rintro ⟨-, hfar⟩
  omega

/-! ## Suggestions -/

/-- **Suggestions are near names.** They are the first three near names of a table, in its order,
that are not overlooked for their lengths. If all near names have as many dotted capitals as the
name, none is overlooked, and the suggestions are just the first three near names. -/
theorem similar_near (t : SymbolTable) (name : String) :
    t.similar name =
      (t.symbols.names.filter fun s => IsNear name s ∧ ¬ IsOverlooked name s).take 3 ∧
    ((∀ s ∈ t.symbols.names, IsNear name s → s.toList.count 'İ' = name.toList.count 'İ') →
      t.similar name = (t.symbols.names.filter fun s => IsNear name s).take 3) := by
  have hfilter : t.symbols.names.filter (resembles name) =
      t.symbols.names.filter fun s => IsNear name s ∧ ¬ IsOverlooked name s :=
    List.filter_congr fun s _ => Bool.eq_iff_iff.mpr (by rw [resembles_iff, decide_eq_true_eq])
  refine ⟨by rw [similar, hfilter], fun dotted => ?_⟩
  rw [similar, hfilter]
  refine congrArg (List.take 3) (List.filter_congr fun s hs => decide_eq_decide.mpr ?_)
  exact ⟨And.left, fun hnear => ⟨hnear, hnear.not_isOverlooked (dotted s hs hnear)⟩⟩

/-- A dotted capital does no harm where the near names have it too. -/
theorem similar_near_dotted :
    let symbol : Symbol := ⟨0, .predefined, false⟩
    let t : SymbolTable :=
      ⟨.ofList [("sprites", symbol), ("İndex", symbol), ("ndex", symbol), ("İNDEZ", symbol)]⟩
    (∀ s ∈ t.symbols.names, IsNear "İndey" s → s.toList.count 'İ' = "İndey".toList.count 'İ') ∧
    t.similar "İndey" = (t.symbols.names.filter fun s => IsNear "İndey" s).take 3 ∧
    t.similar "İndey" = ["İndex", "İNDEZ"] := by
  intro symbol t
  have dotted : ∀ s ∈ t.symbols.names, IsNear "İndey" s →
      s.toList.count 'İ' = "İndey".toList.count 'İ' := by
    decide +kernel
  have hsimilar := (similar_near t "İndey").2 dotted
  refine ⟨dotted, hsimilar, ?_⟩
  rw [hsimilar]
  decide +kernel

/-- A dotted capital is two characters in lower case, so a name that is one edit away from it is two
characters longer than it, and the capital is not suggested. -/
theorem similar_near_overlooked :
    ∃ t, empty.define "İ" 1 .predefined = (t, ⟨[], .ok ()⟩) ∧
      t.similar "i\u0307x" = [] ∧
      (t.symbols.names.filter fun s => IsNear "i\u0307x" s).take 3 = ["İ"] := by
  refine ⟨⟨.ofList [("İ", ⟨1, .predefined, false⟩)]⟩, ?_, ?_, ?_⟩
  · rfl
  · decide +kernel
  · decide +kernel

end SymbolTable

end NibbleAsm
