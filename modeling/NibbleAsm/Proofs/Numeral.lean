import NibbleAsm.Proofs.Fit
import Mathlib.Data.Nat.Digits.Defs

/-!
# Numerals

A literal is written with a mark that chooses the radix, a sign, and digits with underscores
anywhere among them. This grammar is stated on its own, without the steps in which a literal is
read, and decides them all: a text outside the grammar is malformed, a decimal numeral may have too
many digits to be read, and any other numeral is a number, which fits the field or is negative or
too large.

## Main definitions

* `IsDigit`: the digits of a radix
* `Numeral`: a number as it is written, with its value
* `Numeral.Writes`: the texts of a numeral

## Main results

* `Numeral.writes_iff`: reading a text in steps finds its numeral
* `Numeral.not_writes_of_hasForeignMark`: a numeral has no `x` in it
* `Literal.parse_of_writes`, `Literal.parse_of_not_writes`: what a text is read as
* `Literal.parse_numeral`: a literal is read as its grammar says
-/

namespace NibbleAsm

/-! ## The grammar -/

/-- The digits in the order of their values, with capital letters. -/
def capitalDigits : List Char :=
  ['0', '1', '2', '3', '4', '5', '6', '7', '8', '9', 'A', 'B', 'C', 'D', 'E', 'F']

/-- The digits in the order of their values, with small letters. -/
def smallDigits : List Char :=
  ['0', '1', '2', '3', '4', '5', '6', '7', '8', '9', 'a', 'b', 'c', 'd', 'e', 'f']

/-- A character is a digit of a radix and has the given value. -/
def IsDigit (base : Nat) (c : Char) (value : Nat) : Prop :=
  value < base ∧ (capitalDigits[value]? = some c ∨ smallDigits[value]? = some c)

instance (base : Nat) (c : Char) (value : Nat) : Decidable (IsDigit base c value) :=
  inferInstanceAs (Decidable (_ ∧ _))

/-- A number as it is written: its radix, whether it has a minus sign, and its digits, the most
significant first. -/
structure Numeral where
  base : Nat
  minus : Bool
  digits : List Nat
  deriving DecidableEq, Repr

namespace Numeral

/-- The number that a numeral stands for. -/
def value (n : Numeral) : Int :=
  if n.minus then -(Nat.ofDigits n.base n.digits.reverse : Nat)
  else (Nat.ofDigits n.base n.digits.reverse : Nat)

/-- A decimal numeral with too many digits to be read. Leading zeros count. -/
def IsOverlong (n : Numeral) : Prop :=
  n.base = 10 ∧ 4300 < n.digits.length

instance : DecidablePred IsOverlong := fun _ => inferInstanceAs (Decidable (_ ∧ _))

/-- Characters that are digits of a radix or underscores, with the values of the digits. -/
inductive Spells (base : Nat) : List Char → List Nat → Prop
  | nil : Spells base [] []
  | underscore {cs : List Char} {digits : List Nat} (rest : Spells base cs digits) :
      Spells base ('_' :: cs) digits
  | digit {c : Char} {cs : List Char} {value : Nat} {digits : List Nat}
      (first : IsDigit base c value) (rest : Spells base cs digits) :
      Spells base (c :: cs) (value :: digits)

/-- The body of a literal: a sign, if any, and characters with at least one digit. -/
inductive IsBody (base : Nat) : List Char → Numeral → Prop
  | bare {cs : List Char} {digits : List Nat} (spells : Spells base cs digits)
      (nonempty : digits ≠ []) : IsBody base cs ⟨base, false, digits⟩
  | plus {cs : List Char} {digits : List Nat} (spells : Spells base cs digits)
      (nonempty : digits ≠ []) : IsBody base ('+' :: cs) ⟨base, false, digits⟩
  | minus {cs : List Char} {digits : List Nat} (spells : Spells base cs digits)
      (nonempty : digits ≠ []) : IsBody base ('-' :: cs) ⟨base, true, digits⟩

/-- A text is a way to write a numeral. The first character chooses the radix, and a decimal numeral
has no mark: no body starts with the mark of another radix. -/
inductive Writes (n : Numeral) (s : String) : Prop
  | binary {body : List Char} (text : s.toList = '%' :: body) (isBody : IsBody 2 body n)
  | hexadecimal {body : List Char} (text : s.toList = '$' :: body) (isBody : IsBody 16 body n)
  | decimal (isBody : IsBody 10 s.toList n)

end Numeral

/-! ## Digits -/

section Digits

variable {base value : Nat} {c : Char} {r : Radix} {cs : List Char} {digits : List Nat}

/-- Underscores, signs and marks are no digits. -/
theorem not_isDigit (h : c ∈ ['x', 'X', '_', '+', '-', '%', '$']) : ¬IsDigit base c value := by
  have hall : (['x', 'X', '_', '+', '-', '%', '$'].all fun mark =>
      mark ∉ capitalDigits ∧ mark ∉ smallDigits) = true := by decide
  obtain ⟨hcapital, hsmall⟩ := of_decide_eq_true (List.all_eq_true.mp hall c h)
  rintro ⟨-, hc | hc⟩
  · exact hcapital (List.mem_of_getElem? hc)
  · exact hsmall (List.mem_of_getElem? hc)

/-- The value of a hexadecimal digit is its place among the digits. -/
theorem Radix.hexValue?_eq_some_iff :
    hexValue? c = some value ↔ capitalDigits[value]? = some c ∨ smallDigits[value]? = some c := by
  constructor
  · intro h
    -- a character of one of the three ranges stands at its offset in one table or in both
    have hdecimal : ∀ d < 10, capitalDigits[d]? = some (.ofNat (d + 0x30)) := by decide
    have hcapital : ∀ d < 16, 9 < d → capitalDigits[d]? = some (.ofNat (d + 0x37)) := by decide
    have hsmall : ∀ d < 16, 9 < d → smallDigits[d]? = some (.ofNat (d + 0x57)) := by decide
    have hoffset : ∀ {k}, k ≤ c.toNat → Char.ofNat (c.toNat - k + k) = c := by
      intro k hk
      rw [Nat.sub_add_cancel hk, Char.ofNat_toNat]
    unfold hexValue? at h
    split at h
    · next range =>
      have hlo : 0x30 ≤ c.toNat := range.1
      have hhi : c.toNat ≤ 0x39 := range.2
      obtain rfl := Option.some.inj h
      exact .inl (by rw [hdecimal _ (by omega), hoffset hlo])
    · split at h
      · next range =>
        have hlo : 0x41 ≤ c.toNat := range.1
        have hhi : c.toNat ≤ 0x46 := range.2
        obtain rfl := Option.some.inj h
        exact .inl (by rw [hcapital _ (by omega) (by omega), hoffset (by omega)])
      · split at h
        · next range =>
          have hlo : 0x61 ≤ c.toNat := range.1
          have hhi : c.toNat ≤ 0x66 := range.2
          obtain rfl := Option.some.inj h
          exact .inr (by rw [hsmall _ (by omega) (by omega), hoffset (by omega)])
        · cases h
  · have hall : ∀ d < 16, capitalDigits[d]?.bind hexValue? = some d ∧
        smallDigits[d]?.bind hexValue? = some d := by decide +kernel
    rintro (h | h)
    · have hlt : value < 16 := (List.getElem?_eq_some_iff.mp h).1
      simpa [h] using (hall value hlt).1
    · have hlt : value < 16 := (List.getElem?_eq_some_iff.mp h).1
      simpa [h] using (hall value hlt).2

theorem Radix.digit?_eq_some_iff : r.digit? c = some value ↔ IsDigit r.base c value := by
  rw [digit?, Option.filter_eq_some_iff, hexValue?_eq_some_iff, decide_eq_true_eq]
  exact and_comm

end Digits

/-! ## Numerals in a text -/

namespace Numeral

variable {base : Nat} {c : Char} {cs : List Char} {digits : List Nat} {n m : Numeral} {s : String}
  {r : Radix}

theorem spells_nil_iff : Spells base [] digits ↔ digits = [] :=
  ⟨fun h => by cases h; rfl, fun h => h ▸ .nil⟩

theorem spells_underscore_iff : Spells base ('_' :: cs) digits ↔ Spells base cs digits := by
  refine ⟨fun h => ?_, .underscore⟩
  cases h with
  | underscore rest => exact rest
  | digit first rest => exact absurd first (not_isDigit (by decide))

theorem spells_cons_iff (h : c ≠ '_') :
    Spells base (c :: cs) digits ↔
      ∃ value rest, IsDigit base c value ∧ Spells base cs rest ∧ digits = value :: rest := by
  constructor
  · intro hspells
    cases hspells with
    | underscore rest => exact absurd rfl h
    | digit first rest => exact ⟨_, _, first, rest, rfl⟩
  · rintro ⟨value, rest, first, hrest, rfl⟩
    exact .digit first hrest

/-- Digits and underscores start neither with a sign nor with a mark. -/
theorem Spells.head_ne (h : Spells base cs digits) (mark : Char)
    (hmark : mark ∈ ['+', '-', '%', '$']) : cs.head? ≠ some mark := by
  cases h with
  | nil => simp
  | underscore rest =>
    rintro hhead
    cases hhead
    exact absurd hmark (by decide)
  | digit first rest =>
    rintro hhead
    cases hhead
    exact not_isDigit (List.mem_append_right ['x', 'X', '_'] hmark) first

theorem Spells.not_mem (h : Spells base cs digits) (hc : c ≠ '_')
    (hdigit : ∀ value, ¬IsDigit base c value) : c ∉ cs := by
  induction h with
  | nil => exact List.not_mem_nil
  | underscore rest ih => exact List.not_mem_cons_of_ne_of_not_mem hc ih
  | digit first rest ih =>
    refine List.not_mem_cons_of_ne_of_not_mem ?_ ih
    rintro rfl
    exact hdigit _ first

theorem Spells.length_le (h : Spells base cs digits) : digits.length ≤ cs.length := by
  induction h with
  | nil => rfl
  | underscore rest ih => exact ih.trans (Nat.le_succ _)
  | digit first rest ih => exact Nat.succ_le_succ ih

/-- **The values of the digits of a text are found by leaving out its underscores.** -/
theorem mapM_digit?_eq_some_iff :
    (cs.filter (· ≠ '_')).mapM r.digit? = some digits ↔ Spells r.base cs digits := by
  induction cs generalizing digits with
  | nil =>
    rw [spells_nil_iff]
    simp [eq_comm]
  | cons c cs ih =>
    by_cases hc : c = '_'
    · subst hc
      rw [spells_underscore_iff, ← ih]
      simp
    · rw [spells_cons_iff hc, List.filter_cons_of_pos (by simpa using hc), List.mapM_cons]
      simp only [Option.bind_eq_bind, Option.bind_eq_some_iff, Option.pure_def, Option.some.injEq,
        Radix.digit?_eq_some_iff, ih]
      constructor
      · rintro ⟨value, first, rest, hrest, rfl⟩
        exact ⟨value, rest, first, hrest, rfl⟩
      · rintro ⟨value, rest, first, hrest, rfl⟩
        exact ⟨value, first, rest, hrest, rfl⟩

theorem digits?_eq_some_iff :
    r.digits? cs = some digits ↔ Spells r.base cs digits ∧ digits ≠ [] := by
  rw [Radix.digits?, Option.filter_eq_some_iff, mapM_digit?_eq_some_iff, decide_eq_true_eq]

theorem splitSign_of_spells (h : Spells base cs digits) : Literal.splitSign cs = (false, cs) := by
  unfold Literal.splitSign
  split
  · exact absurd rfl (h.head_ne '+' (by decide))
  · exact absurd rfl (h.head_ne '-' (by decide))
  · rfl

theorem isBody_iff :
    IsBody r.base cs n ↔ ∃ digits, r.digits? (Literal.splitSign cs).2 = some digits ∧
      n = ⟨r.base, (Literal.splitSign cs).1, digits⟩ := by
  simp only [digits?_eq_some_iff]
  constructor
  · intro h
    cases h with
    | bare spells nonempty =>
      rw [splitSign_of_spells spells]
      exact ⟨_, ⟨spells, nonempty⟩, rfl⟩
    | plus spells nonempty => exact ⟨_, ⟨spells, nonempty⟩, rfl⟩
    | minus spells nonempty => exact ⟨_, ⟨spells, nonempty⟩, rfl⟩
  · rintro ⟨digits, ⟨spells, nonempty⟩, rfl⟩
    unfold Literal.splitSign at spells ⊢
    split at spells
    · exact .plus spells nonempty
    · exact .minus spells nonempty
    · exact .bare spells nonempty

theorem IsBody.split_eq (h : IsBody base cs n) : Literal.split cs = (.decimal, cs) := by
  unfold Literal.split
  split
  · cases h with
    | bare spells => exact absurd rfl (spells.head_ne '%' (by decide))
  · cases h with
    | bare spells => exact absurd rfl (spells.head_ne '$' (by decide))
  · rfl

/-- A text writes a numeral if what follows the mark is its body. -/
theorem writes_iff :
    n.Writes s ↔ IsBody (Literal.split s.toList).1.base (Literal.split s.toList).2 n := by
  constructor
  · rintro (⟨text, isBody⟩ | ⟨text, isBody⟩ | isBody)
    · rw [text]
      exact isBody
    · rw [text]
      exact isBody
    · rw [isBody.split_eq]
      exact isBody
  · intro h
    unfold Literal.split at h
    split at h
    · next body text => exact .binary text h
    · next body text => exact .hexadecimal text h
    · exact .decimal h

/-- **A text writes at most one numeral.** -/
theorem Writes.unique (hn : n.Writes s) (hm : m.Writes s) : n = m := by
  obtain ⟨digits, hdigits, rfl⟩ := isBody_iff.mp (writes_iff.mp hn)
  obtain ⟨digits', hdigits', rfl⟩ := isBody_iff.mp (writes_iff.mp hm)
  rw [Option.some.inj (hdigits.symm.trans hdigits')]

/-- A numeral has no more digits than its text has characters. -/
theorem Writes.length_le (h : n.Writes s) : n.digits.length ≤ s.toList.length := by
  have hbody : ∀ {base body}, IsBody base body n → n.digits.length ≤ body.length := by
    rintro base body (⟨spells, -⟩ | ⟨spells, -⟩ | ⟨spells, -⟩)
    · exact spells.length_le
    · exact spells.length_le.trans (Nat.le_succ _)
    · exact spells.length_le.trans (Nat.le_succ _)
  rcases h with ⟨text, isBody⟩ | ⟨text, isBody⟩ | isBody
  · rw [text]
    exact (hbody isBody).trans (Nat.le_succ _)
  · rw [text]
    exact (hbody isBody).trans (Nat.le_succ _)
  · exact hbody isBody

/-- A text with the mark of hexadecimal numbers elsewhere writes no numeral: no numeral has an `x`
in it. So the test for this mark only finds sooner what the digits would show. -/
theorem not_writes_of_hasForeignMark (h : Literal.hasForeignMark s.toList = true) :
    ¬n.Writes s := by
  have hplain : (['%', '$', '+', '-'].all fun c => !Text.isDecimal c) = true := by decide +kernel
  intro writes
  unfold Literal.hasForeignMark at h
  split at h
  · next digit mark rest text =>
    rw [Bool.and_eq_true, Bool.or_eq_true, decide_eq_true_eq, decide_eq_true_eq] at h
    obtain ⟨hdigit, hmark⟩ := h
    have hfirst {c : Char} (hc : c ∈ ['%', '$', '+', '-']) : digit ≠ c := by
      rintro rfl
      have := List.all_eq_true.mp hplain digit hc
      rw [hdigit] at this
      cases this
    cases writes with
    | binary text' => exact hfirst (by decide) (List.cons.inj (text.symm.trans text')).1
    | hexadecimal text' => exact hfirst (by decide) (List.cons.inj (text.symm.trans text')).1
    | decimal isBody =>
      rw [text] at isBody
      cases isBody with
      | plus => exact hfirst (by decide) rfl
      | minus => exact hfirst (by decide) rfl
      | bare spells =>
        have hmem : mark ∈ digit :: mark :: rest := List.mem_cons_of_mem _ List.mem_cons_self
        rcases hmark with rfl | rfl
        · exact spells.not_mem (by decide) (fun _ => not_isDigit (by decide)) hmem
        · exact spells.not_mem (by decide) (fun _ => not_isDigit (by decide)) hmem
  · cases h

theorem Writes.exists_iff (hn : n.Writes s) {P : Numeral → Prop} :
    (∃ m : Numeral, m.Writes s ∧ P m) ↔ P n :=
  ⟨fun ⟨_, hm, h⟩ => hn.unique hm ▸ h, fun h => ⟨n, hn, h⟩⟩

end Numeral

/-! ## Literals as they are read -/

theorem Radix.value_eq (r : Radix) (digits : List Nat) :
    r.value digits = Nat.ofDigits r.base digits.reverse := by
  rw [Nat.ofDigits_eq_foldr, List.foldr_reverse, value]
  simp only [Nat.mul_comm, Nat.add_comm, Nat.cast_id]

/-- What a check of a width of the machine ends in. -/
theorem Width.check_of_isSupported {w : Width} (h : w.isSupported = true) (value : Int)
    (shown : String) :
    w.check value shown =
      if value < 0 then fail (.negative shown)
      else if value < w.limit then .ok value
      else fail (.tooLarge shown w.limit) := by
  have hbits : w.bits = 4 ∨ w.bits = 8 ∨ w.bits = 16 := by simpa [isSupported] using h
  have hgreatest : ¬w.bits > greatest := by
    rcases hbits with hbits | hbits | hbits <;> rw [hbits] <;> decide
  have hmemory : ¬w.bits ≥ memoryBound := by
    rcases hbits with hbits | hbits | hbits <;> rw [hbits] <;> decide
  unfold check
  by_cases hneg : value < 0
  · rw [if_pos hneg, if_pos hneg]
  · -- the tests of an unusual width pass, and what is left compares with the limit
    rw [if_neg hneg, if_neg hneg, if_neg (by omega), if_neg hgreatest, if_neg hmemory]
    have hlimit : isOverlong w.limit = false := by
      apply isOverlong_of_lt
      rcases hbits with hbits | hbits | hbits <;> rw [limit, hbits] <;> decide
    refine if_congr ?_ rfl (if_neg (Bool.not_eq_true _ ▸ hlimit))
    rw [fits_iff, Int.toNat_of_nonneg (Int.not_lt.mp hneg)]

namespace Literal

variable {w : Width} {s : String} {n : Numeral}

/-- **A numeral is read as its value**, if it does not have too many digits. -/
theorem parse_of_writes (hw : w.isSupported = true) (h : n.Writes s) :
    parse w s = if n.IsOverlong then .error (.fault (.numeralTooLong n.digits.length))
      else w.check n.value s := by
  obtain ⟨digits, hdigits, rfl⟩ := Numeral.isBody_iff.mp (Numeral.writes_iff.mp h)
  have hdecimal : ∀ r : Radix, r.base = 10 ↔ r = .decimal := by
    intro r
    cases r <;> decide
  have hmark : hasForeignMark s.toList = false :=
    Bool.eq_false_iff.mpr fun hmark => Numeral.not_writes_of_hasForeignMark hmark h
  unfold parse
  simp only [hw, hmark, hdigits, Bool.not_true, Bool.false_eq_true, if_false, Numeral.IsOverlong,
    hdecimal, Numeral.value, Radix.value_eq, maxDecimalDigits, gt_iff_lt]

/-- A text that writes no numeral is malformed. -/
theorem parse_of_not_writes (hw : w.isSupported = true) (h : ¬∃ n : Numeral, n.Writes s) :
    parse w s = fail (.malformedInteger s) := by
  have hdigits : (split s.toList).1.digits? (splitSign (split s.toList).2).2 = none := by
    rw [Option.eq_none_iff_forall_ne_some]
    intro digits hdigits
    exact h ⟨_, Numeral.writes_iff.mpr (Numeral.isBody_iff.mpr ⟨digits, hdigits, rfl⟩)⟩
  unfold parse
  simp only [hw, hdigits, Bool.not_true, Bool.false_eq_true, if_false, ite_self]

theorem parse_eq_ok_iff (hw : w.isSupported = true) {v : Int} :
    parse w s = .ok v ↔
      ∃ n : Numeral, n.Writes s ∧ ¬n.IsOverlong ∧ n.value = v ∧ 0 ≤ v ∧ v < w.limit := by
  by_cases h : ∃ n : Numeral, n.Writes s
  · obtain ⟨n, hn⟩ := h
    rw [hn.exists_iff, parse_of_writes hw hn, Width.check_of_isSupported hw]
    split_ifs with hlong hneg hlt
    · simp [hlong]
    · simp only [fail_ne_ok, false_iff]
      omega
    · simp only [Except.ok.injEq, hlong, not_false_eq_true, true_and]
      omega
    · simp only [fail_ne_ok, false_iff]
      omega
  · rw [parse_of_not_writes hw h]
    exact ⟨nofun, fun ⟨n, hn, _⟩ => absurd ⟨n, hn⟩ h⟩

/-- **A literal is read as its grammar says.** A text that writes a numeral is read as its value if
that fits the field, and is refused as negative or as too large if not. A text that writes none is
malformed. The one exception is a decimal numeral with more than 4300 digits. -/
theorem parse_numeral {bits : Nat} (hbits : bits ∈ [4, 8, 16]) (s : String) :
    (∀ v, parse ⟨bits⟩ s = .ok v ↔
      ∃ n : Numeral, n.Writes s ∧ ¬n.IsOverlong ∧ n.value = v ∧ 0 ≤ v ∧ v < 2 ^ bits) ∧
    (∀ t, parse ⟨bits⟩ s = fail (.malformedInteger t) ↔ t = s ∧ ¬∃ n : Numeral, n.Writes s) ∧
    (∀ t, parse ⟨bits⟩ s = fail (.negative t) ↔
      t = s ∧ ∃ n : Numeral, n.Writes s ∧ ¬n.IsOverlong ∧ n.value < 0) ∧
    (∀ t limit, parse ⟨bits⟩ s = fail (.tooLarge t limit) ↔
      t = s ∧ limit = 2 ^ bits ∧
        ∃ n : Numeral, n.Writes s ∧ ¬n.IsOverlong ∧ 2 ^ bits ≤ n.value) ∧
    ∀ count, parse ⟨bits⟩ s = .error (.fault (.numeralTooLong count)) ↔
      ∃ n : Numeral, n.Writes s ∧ n.IsOverlong ∧ n.digits.length = count := by
  have hw : Width.isSupported ⟨bits⟩ = true := by
    revert bits
    decide
  have hlimit : Width.limit ⟨bits⟩ = 2 ^ bits := rfl
  by_cases h : ∃ n : Numeral, n.Writes s
  · obtain ⟨n, hn⟩ := h
    have hsome : ¬¬∃ n : Numeral, n.Writes s := not_not_intro ⟨n, hn⟩
    -- there is one numeral to speak of, and the four outcomes that are left exclude each other
    simp only [hn.exists_iff, hsome, parse_of_writes hw hn, Width.check_of_isSupported hw, hlimit]
    split_ifs with hlong hneg hlt
    · simp [hlong, fault_ne_fail]
    · have hlt : n.value < 2 ^ bits := hneg.trans (by positivity)
      simp [fail_inj, fail_ne_ok, fail_ne_fault, eq_comm (a := s), hlong, hneg, hlt]
    · simp [ok_ne_fail, hlong, hlt, hneg]
      omega
    · simp [fail_inj, fail_ne_ok, fail_ne_fault, eq_comm (a := s), eq_comm (a := (2 : Int) ^ bits),
        hlong, hneg]
      omega
  · have hnone : ∀ P : Numeral → Prop, ¬∃ n : Numeral, n.Writes s ∧ P n :=
      fun P ⟨n, hn, _⟩ => h ⟨n, hn⟩
    rw [parse_of_not_writes hw h]
    simp [hnone, h, fail_inj, fail_ne_ok, fail_ne_fault, eq_comm (a := s)]

/-- The greatest byte, with a sign, an underscore in front and letters of both cases. -/
theorem parse_numeral_byte :
    8 ∈ [4, 8, 16] ∧ Numeral.Writes ⟨16, false, [15, 15]⟩ "$+_fF" ∧
      parse ⟨8⟩ "$+_fF" = .ok 255 := by
  have htext : "$+_fF".toList = ['$', '+', '_', 'f', 'F'] := by decide +kernel
  have hwrites : Numeral.Writes ⟨16, false, [15, 15]⟩ "$+_fF" :=
    .hexadecimal htext
      (.plus (.underscore (.digit (by decide) (.digit (by decide) .nil))) (by decide))
  refine ⟨by decide, hwrites, ((parse_numeral (by decide) "$+_fF").1 255).mpr ?_⟩
  exact ⟨_, hwrites, by decide, by decide, by decide, by decide⟩

end Literal

end NibbleAsm
