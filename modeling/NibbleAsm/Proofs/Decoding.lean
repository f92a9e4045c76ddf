import NibbleAsm.Proofs.Constants
import NibbleAsm.Proofs.Encoding
import Mathlib.Tactic.IntervalCases

/-!
# Words of instructions are read back

The word of an instruction holds all that its line says: the instruction and what its operands stand
for can be read off the fields of the word. Only the spelling is lost, as in the letter case of the
name, the names of values and the order of the letters of a condition. What is read off a word can
be written as a line again, so the words that are read are exactly those that some line has.

## Main definitions

* `Form.read`, `Instruction.decode?`: the instruction of a word
* `Argument.text`: a way to write an operand
* `Instruction.Resolves`: what the operands of a line stand for
* `IsInstructionWord`: the words of instructions, by their fields

## Main results

* `Form.Tabulates.read_eq`: a row of the table is read off its fields
* `Form.tabulates_of_read`: what is read off fields is a row of the table when it is written
* `Instruction.Resolves.decode?_eq`: the word of a line is read as the line
* `Instruction.encode_of_decode?`: what is read off a word is a line with this word
* `Instruction.encode_decodable`: lines have the same word when they say the same
-/

namespace NibbleAsm

/-! ## The instruction of a word -/

/-- The letters of a condition on a value, from its code. -/
def codeLetters (code : Int) : List Char :=
  (if code / 4 % 2 = 1 then ['N'] else []) ++ (if code / 2 % 2 = 1 then ['Z'] else []) ++
    if code % 2 = 1 then ['P'] else []

/-- What the operands of an instruction stand for, from the fields of its word. -/
def Form.read (form : Form) (a b c : Int) : Option (List Argument) :=
  match form with
  | .plain => if a = 0 ∧ b = 0 ∧ c = 0 then some [] else none
  | .byteRegister => some [.value (a * 0x10 + b), .value c]
  | .sourceDestination => if b = 0 then some [.value a, .value c] else none
  | .addressRegister => if c = 0 then some [.value a, .value b] else none
  | .threeFields => some [.value a, .value b, .value c]
  | .shift =>
    -- a shift to the right has the high bit of the second field
    some [.value a, .direction (if b < 8 then "L" else "R"), .value (b % 8 + 1), .value c]
  | .branch =>
    if 1 ≤ c ∧ c ≤ 7 then some [.value a, .letters (codeLetters c).toFinset, .value b]
    else if a = 0 then
      (flagCodes.find? fun flag => 8 + flag.2 = c).map fun flag => [.flag flag.1, .value b]
    else none
  | .register => if a = 0 ∧ b = 0 then some [.value c] else none

namespace Instruction

/-- The name of the instruction of a word, and what its operands stand for. -/
def decode? (w : Int) : Option (String × List Argument) :=
  (instructionSet.find? fun entry => entry.opcode = w / 0x1000).bind fun entry =>
    (entry.form.read (w / 0x100 % 0x10) (w / 0x10 % 0x10) (w % 0x10)).map (entry.name, ·)

/-- What the operands of a line stand for. -/
def Resolves (scope : Scope) (word args : String) (arguments : List Argument) : Prop :=
  ∃ entry ∈ instructionSet, Text.upper word = entry.name ∧
    ∃ a b c, entry.form.Tabulates scope (Text.words args) arguments a b c

end Instruction

/-- A way to write an operand. -/
def Argument.text : Argument → String
  | value v => Text.decimal v
  | direction text => text
  | letters set => .ofList (['N', 'Z', 'P'].filter (· ∈ set))
  | flag text => text

/-- The fields that an instruction can have, by the form of its operands. -/
def Form.Admits (form : Form) (a b c : Int) : Prop :=
  match form with
  | .plain => a = 0 ∧ b = 0 ∧ c = 0
  | .byteRegister | .threeFields | .shift => True
  | .sourceDestination => b = 0
  | .addressRegister => c = 0
  | .branch => (1 ≤ c ∧ c ≤ 7) ∨ (a = 0 ∧ 8 ≤ c ∧ c ≤ 10)
  | .register => a = 0 ∧ b = 0

/-- The words of instructions, by their opcodes and fields. -/
def IsInstructionWord (w : Int) : Prop :=
  let opcode := w / 0x1000
  let a := w / 0x100 % 0x10
  let b := w / 0x10 % 0x10
  let c := w % 0x10
  w = 0x0000 ∨ opcode = 1 ∨ opcode = 2 ∨ (5 ≤ opcode ∧ opcode ≤ 0xB) ∨ opcode = 0xD ∨
    ((opcode = 3 ∨ opcode = 0xC) ∧ b = 0) ∨ (opcode = 4 ∧ c = 0) ∨
    (opcode = 0xE ∧ 1 ≤ c ∧ c ≤ 7) ∨ (opcode = 0xE ∧ a = 0 ∧ 8 ≤ c ∧ c ≤ 10) ∨
    (opcode = 0xF ∧ a = 0 ∧ b = 0)

/-! ## Conditions -/

section Conditions

variable {set : Finset Char} {code : Int} {flag : String}

/-- The letters of a condition are found in its code. -/
theorem toFinset_codeLetters (h : ∀ c ∈ set, c ∈ ['N', 'Z', 'P']) :
    (codeLetters (letterCode set)).toFinset = set := by
  -- each of the three letters has a bit of its own in the code
  have hN : letterCode set / 4 % 2 = 1 ↔ 'N' ∈ set := by
    unfold letterCode
    split_ifs <;> simp_all
  have hZ : letterCode set / 2 % 2 = 1 ↔ 'Z' ∈ set := by
    unfold letterCode
    split_ifs <;> simp_all
  have hP : letterCode set % 2 = 1 ↔ 'P' ∈ set := by
    unfold letterCode
    split_ifs <;> simp_all
  ext c
  simp only [List.mem_toFinset, codeLetters, hN, hZ, hP, List.mem_append]
  constructor
  · rintro ((hc | hc) | hc)
    all_goals
      split_ifs at hc with hmem
      · exact List.mem_singleton.mp hc ▸ hmem
      · cases hc
  · intro hc
    have hletter : c = 'N' ∨ c = 'Z' ∨ c = 'P' := by simpa using h c hc
    rcases hletter with rfl | rfl | rfl
    · simp [hc]
    · simp [hc]
    · simp [hc]

theorem letterCode_mem_range {c : Char} (hc : c ∈ set) (hletter : c ∈ ['N', 'Z', 'P']) :
    1 ≤ letterCode set ∧ letterCode set ≤ 7 := by
  simp only [List.mem_cons, List.not_mem_nil, or_false] at hletter
  unfold letterCode
  rcases hletter with rfl | rfl | rfl
  all_goals
    rw [if_pos hc]
    split_ifs <;> decide

/-- A condition that is read off its code has this code. -/
theorem letterCode_codeLetters (hlo : 1 ≤ code) (hhi : code ≤ 7) :
    letterCode (codeLetters code).toFinset = code := by
  interval_cases code <;> decide

theorem text_letters (hlo : 1 ≤ code) (hhi : code ≤ 7) :
    (Argument.letters (codeLetters code).toFinset).text = .ofList (codeLetters code) := by
  refine congrArg String.ofList ?_
  interval_cases code <;> decide

theorem mem_of_mem_codeLetters {c : Char} (h : c ∈ codeLetters code) : c ∈ ['N', 'Z', 'P'] := by
  simp only [codeLetters, List.mem_append] at h
  rcases h with (h | h) | h
  all_goals
    split_ifs at h
    · simp [List.mem_singleton.mp h]
    · cases h

theorem isPlain_codeLetters (hlo : 1 ≤ code) (hhi : code ≤ 7) :
    IsPlain (.ofList (codeLetters code)) := by
  interval_cases code <;> decide +kernel

theorem find?_flagCodes (h : (flag, code) ∈ flagCodes) :
    (flagCodes.find? fun entry => 8 + entry.2 = 8 + code) = some (flag, code) := by
  simp only [flagCodes, List.mem_cons, Prod.mk.injEq, List.not_mem_nil, or_false] at h
  rcases h with ⟨rfl, rfl⟩ | ⟨rfl, rfl⟩ | ⟨rfl, rfl⟩ <;> rfl

theorem isPlain_of_mem_flagCodes (h : (flag, code) ∈ flagCodes) : IsPlain flag := by
  have hall : ∀ entry ∈ flagCodes, IsPlain entry.1 := by decide +kernel
  exact hall _ h

end Conditions

/-! ## Fields -/

section Fields

variable {scope : Scope} {form : Form} {operands : List String} {arguments : List Argument}
  {a b c v : Int}

/-- **A row of the table is read off its fields.** -/
theorem Form.Tabulates.read_eq (h : form.Tabulates scope operands arguments a b c) :
    form.read a b c = some arguments := by
  cases h with
  | plain => rfl
  | @byteRegister _ _ byte _ hs ht =>
    have hbyte : byte / 16 * 16 + byte % 16 = byte := by omega
    simp [read, hbyte]
  | sourceDestination hs ht => rfl
  | addressRegister hs ht => rfl
  | threeFields hs ht hu => rfl
  | @shiftLeft _ _ _ _ amount _ hs ht hu =>
    have hlo := ht.least_le
    have hhi := ht.le_greatest
    have hdirection : amount - 1 < 8 := by omega
    have hamount : (amount - 1) % 8 + 1 = amount := by omega
    simp only [read, hdirection, hamount, if_true]
  | @shiftRight _ _ _ _ amount _ hs ht hu =>
    have hlo := ht.least_le
    have hhi := ht.le_greatest
    have hdirection : ¬amount - 1 + 8 < 8 := by omega
    have hamount : (amount - 1 + 8) % 8 + 1 = amount := by omega
    simp only [read, hdirection, hamount, if_false]
  | @branchValue _ t _ _ _ hs nonempty letters hu =>
    have hletters : ∀ c ∈ t.toList.toFinset, c ∈ ['N', 'Z', 'P'] := by simpa using letters
    obtain ⟨c, hc⟩ := List.exists_mem_of_ne_nil _ nonempty
    have hrange := letterCode_mem_range (List.mem_toFinset.mpr hc) (letters c hc)
    simp only [read, hrange, and_self, if_true, toFinset_codeLetters hletters]
  | @branchFlag _ _ code _ flag ht =>
    have hrange : ¬(1 ≤ 8 + code ∧ 8 + code ≤ 7) := by
      simp only [flagCodes, List.mem_cons, List.not_mem_nil, or_false, Prod.mk.injEq] at flag
      omega
    simp only [read, hrange, if_false, if_true, find?_flagCodes flag, Option.map_some]
  | register hs => rfl

theorem Scope.holds_decimal {least greatest : Int} (hleast : 0 ≤ least)
    (hgreatest : greatest < 0x10000) (hlo : least ≤ v) (hhi : v ≤ greatest) :
    scope.Holds least greatest (Text.decimal v) v := by
  have hword : IsWord v := ⟨by omega, by omega⟩
  obtain ⟨n, writes, short, hvalue⟩ := Numeral.writes_decimal hword
  have hdenotes : scope.Denotes (Text.decimal v) n.value :=
    .literal (isLiteral_decimal hword.1) writes short
  exact ⟨hvalue ▸ hdenotes, hlo, hhi⟩

theorem IsNibble.holds_decimal (h : IsNibble v) (scope : Scope) :
    scope.Holds 0 15 (Text.decimal v) v :=
  Scope.holds_decimal (by decide) (by decide) h.1 (Int.le_of_lt_add_one h.2)

/-- **What is read off fields can be written in words that make a row of the table.** -/
theorem Form.tabulates_of_read (ha : IsNibble a) (hb : IsNibble b) (hc : IsNibble c)
    (h : form.read a b c = some arguments) (scope : Scope) :
    (∀ x ∈ arguments, IsPlain x.text) ∧
      form.Tabulates scope (arguments.map Argument.text) arguments a b c := by
  have hfirst := ha.holds_decimal scope
  have hsecond := hb.holds_decimal scope
  have hthird := hc.holds_decimal scope
  have hplain : ∀ {v}, 0 ≤ v → IsPlain (Argument.value v).text := isPlain_decimal
  -- by form: where a field is tested, the test gives its value, and the others hold their operands
  obtain ⟨ha₀, ha₁⟩ := ha
  obtain ⟨hb₀, hb₁⟩ := hb
  obtain ⟨hc₀, -⟩ := hc
  cases form with
  | plain =>
    simp only [read, Option.ite_none_right_eq_some, Option.some.injEq] at h
    obtain ⟨⟨rfl, rfl, rfl⟩, rfl⟩ := h
    exact ⟨by simp, .plain⟩
  | byteRegister =>
    obtain rfl := Option.some.inj h
    have hbyte : scope.Holds 0 255 (Text.decimal (a * 16 + b)) (a * 16 + b) :=
      Scope.holds_decimal (by decide) (by decide) (by omega) (by omega)
    -- the byte that two fields make is split into these fields again
    have hhigh : (a * 16 + b) / 16 = a := by omega
    have hlow : (a * 16 + b) % 16 = b := by omega
    have hrow := Tabulates.byteRegister hbyte hthird
    rw [hhigh, hlow] at hrow
    exact ⟨by simp [hplain hbyte.least_le, hplain hc₀], hrow⟩
  | sourceDestination =>
    simp only [read, Option.ite_none_right_eq_some, Option.some.injEq] at h
    obtain ⟨rfl, rfl⟩ := h
    exact ⟨by simp [hplain ha₀, hplain hc₀], .sourceDestination hfirst hthird⟩
  | addressRegister =>
    simp only [read, Option.ite_none_right_eq_some, Option.some.injEq] at h
    obtain ⟨rfl, rfl⟩ := h
    exact ⟨by simp [hplain ha₀, hplain hb₀], .addressRegister hfirst hsecond⟩
  | threeFields =>
    obtain rfl := Option.some.inj h
    exact ⟨by simp [hplain ha₀, hplain hb₀, hplain hc₀], .threeFields hfirst hsecond hthird⟩
  | shift =>
    obtain rfl := Option.some.inj h
    have hamount : scope.Holds 1 8 (Text.decimal (b % 8 + 1)) (b % 8 + 1) :=
      Scope.holds_decimal (by decide) (by decide) (by omega) (by omega)
    have hamount₀ : 0 ≤ b % 8 + 1 := by omega
    -- the high bit of the field decides the direction, and the rest is the amount less one
    by_cases hdirection : b < 8
    · rw [if_pos hdirection]
      have hleft : IsPlain (Argument.direction "L").text := by decide +kernel
      have hfield : b % 8 + 1 - 1 = b := by omega
      have hrow := Tabulates.shiftLeft hfirst hamount hthird
      rw [hfield] at hrow
      exact ⟨by simp [hplain ha₀, hplain hamount₀, hplain hc₀, hleft], hrow⟩
    · rw [if_neg hdirection]
      have hright : IsPlain (Argument.direction "R").text := by decide +kernel
      have hfield : b % 8 + 1 - 1 + 8 = b := by omega
      have hrow := Tabulates.shiftRight hfirst hamount hthird
      rw [hfield] at hrow
      exact ⟨by simp [hplain ha₀, hplain hamount₀, hplain hc₀, hright], hrow⟩
  | branch =>
    simp only [read] at h
    split_ifs at h with hrange hzero
    · obtain rfl := Option.some.inj h
      have hletters := isPlain_codeLetters hrange.1 hrange.2
      have htext : (String.ofList (codeLetters c)).toList = codeLetters c := String.toList_ofList
      have hrow : Form.branch.Tabulates scope [_, .ofList (codeLetters c), _] _ a b _ :=
        .branchValue hfirst hletters.nonempty (fun _ hd => mem_of_mem_codeLetters (htext ▸ hd))
          hsecond
      -- in any order the letters would do, and `Argument.text` has them in that of the codes
      rw [htext, letterCode_codeLetters hrange.1 hrange.2] at hrow
      rw [← text_letters hrange.1 hrange.2] at hrow hletters
      exact ⟨by simp [hplain ha₀, hplain hb₀, hletters], hrow⟩
    · obtain ⟨⟨flag, code⟩, hfind, rfl⟩ := Option.map_eq_some_iff.mp h
      have hmem := List.mem_of_find?_eq_some hfind
      have hflag : IsPlain (Argument.flag flag).text := isPlain_of_mem_flagCodes hmem
      have hcode : 8 + code = c := by simpa using List.find?_some hfind
      subst hzero hcode
      exact ⟨by simp [hplain hb₀, hflag], .branchFlag hmem hsecond⟩
  | register =>
    simp only [read, Option.ite_none_right_eq_some, Option.some.injEq] at h
    obtain ⟨⟨rfl, rfl⟩, rfl⟩ := h
    exact ⟨by simp [hplain hc₀], .register hthird⟩

/-- The fields that can be read. -/
theorem Form.isSome_read_iff : (form.read a b c).isSome ↔ form.Admits a b c := by
  cases form with
  | branch =>
    simp only [read, Admits]
    split_ifs with hrange hzero
    · simp [hrange]
    · have hflag : (∃ flag ∈ flagCodes, 8 + flag.2 = c) ↔ 8 ≤ c ∧ c ≤ 10 := by
        simp only [flagCodes, List.exists_mem_cons_iff, List.not_mem_nil, false_and, exists_false,
          or_false]
        omega
      simp [hrange, hzero, ← hflag]
    · simp [hrange, hzero]
  | _ => simp [read, Admits]

end Fields

/-! ## Words -/

/-- The opcodes of the instruction set with the fields of their forms. -/
theorem exists_admits_iff {opcode a b c : Int} :
    (∃ entry ∈ instructionSet, entry.opcode = opcode ∧ entry.form.Admits a b c) ↔
      (opcode = 0 ∧ a = 0 ∧ b = 0 ∧ c = 0) ∨ opcode = 1 ∨ opcode = 2 ∨
        (5 ≤ opcode ∧ opcode ≤ 0xB) ∨ opcode = 0xD ∨ ((opcode = 3 ∨ opcode = 0xC) ∧ b = 0) ∨
        (opcode = 4 ∧ c = 0) ∨ (opcode = 0xE ∧ 1 ≤ c ∧ c ≤ 7) ∨
        (opcode = 0xE ∧ a = 0 ∧ 8 ≤ c ∧ c ≤ 10) ∨ (opcode = 0xF ∧ a = 0 ∧ b = 0) := by
  by_cases hrange : 0 ≤ opcode ∧ opcode ≤ 0xF
  · obtain ⟨hlo, hhi⟩ := hrange
    simp only [instructionSet, List.exists_mem_cons_iff, List.not_mem_nil, false_and, exists_false,
      or_false, Form.Admits, and_true]
    interval_cases opcode <;> simp
  · -- on either side the opcode is a nibble
    have hopcode : ∀ entry ∈ instructionSet, 0 ≤ entry.opcode ∧ entry.opcode ≤ 0xF := by decide
    constructor
    · rintro ⟨entry, hentry, rfl, -⟩
      exact absurd (hopcode entry hentry) hrange
    · intro h
      omega

theorem isInstructionWord_iff {w : Int} :
    IsInstructionWord w ↔ ∃ entry ∈ instructionSet, entry.opcode = w / 0x1000 ∧
      entry.form.Admits (w / 0x100 % 0x10) (w / 0x10 % 0x10) (w % 0x10) := by
  have hzero : w = 0 ↔ w / 0x1000 = 0 ∧ w / 0x100 % 0x10 = 0 ∧ w / 0x10 % 0x10 = 0 ∧
      w % 0x10 = 0 := by omega
  rw [exists_admits_iff, ← hzero]
  rfl

namespace Instruction

variable {scope : Scope} {word args name : String} {arguments : List Argument} {w a b c : Int}
  {entry : InstructionEntry}

/-- Instructions have different opcodes. -/
theorem find?_instructionSet (h : entry ∈ instructionSet) :
    (instructionSet.find? fun other => other.opcode = entry.opcode) = some entry := by
  obtain ⟨m, rfl⟩ := mem_instructionSet_iff.mp h
  cases m <;> rfl

theorem decode?_eq (h : entry ∈ instructionSet) (hw : entry.opcode = w / 0x1000) :
    decode? w = (entry.form.read (w / 0x100 % 0x10) (w / 0x10 % 0x10) (w % 0x10)).map
      (entry.name, ·) := by
  rw [decode?, ← hw, find?_instructionSet h, Option.bind_some]

theorem exists_entry_of_decode? (h : decode? w = some (name, arguments)) :
    ∃ entry ∈ instructionSet, entry.opcode = w / 0x1000 ∧ entry.name = name ∧
      entry.form.read (w / 0x100 % 0x10) (w / 0x10 % 0x10) (w % 0x10) = some arguments := by
  obtain ⟨entry, hfind, h⟩ := Option.bind_eq_some_iff.mp h
  obtain ⟨_, hread, hpair⟩ := Option.map_eq_some_iff.mp h
  obtain ⟨hname, rfl⟩ := Prod.mk.inj hpair
  exact ⟨entry, List.mem_of_find?_eq_some hfind, by simpa using List.find?_some hfind, hname, hread⟩

/-- **The word of a line is read as the line.** -/
theorem Resolves.decode?_eq (h : Resolves scope word args arguments) :
    ∃ w, encode scope word args = .ok w ∧ decode? w = some (Text.upper word, arguments) := by
  obtain ⟨entry, hentry, hname, a, b, c, row⟩ := h
  obtain ⟨⟨ha₀, ha₁⟩, ⟨hb₀, hb₁⟩, hc₀, hc₁⟩ := row.isNibble
  refine ⟨_, encode_eq_ok_iff.mpr ⟨entry, hentry, hname, arguments, a, b, c, row, rfl⟩, ?_⟩
  rw [Instruction.decode?_eq hentry (by omega), hname]
  -- no field carries into the next
  have hread : ∀ {x y z}, x = a → y = b → z = c → entry.form.read x y z = some arguments := by
    rintro _ _ _ rfl rfl rfl
    exact row.read_eq
  rw [hread (by omega) (by omega) (by omega), Option.map_some]

theorem exists_resolves (h : encode scope word args = .ok w) :
    ∃ arguments, Resolves scope word args arguments := by
  obtain ⟨entry, hentry, hname, arguments, a, b, c, row, -⟩ := encode_eq_ok_iff.mp h
  exact ⟨arguments, entry, hentry, hname, a, b, c, row⟩

/-- The operands of a line with a word stand for what is read off the word. -/
theorem resolves_iff (h : encode scope word args = .ok w) :
    Resolves scope word args arguments ↔ decode? w = some (Text.upper word, arguments) := by
  have hdecode : ∀ {arguments}, Resolves scope word args arguments →
      decode? w = some (Text.upper word, arguments) := by
    intro arguments hresolves
    obtain ⟨w', hw', hdecode⟩ := hresolves.decode?_eq
    rwa [← Except.ok.inj (h.symm.trans hw')] at hdecode
  refine ⟨hdecode, fun hw => ?_⟩
  -- the line has some arguments, and these are the ones that the word has
  obtain ⟨arguments', hresolves⟩ := exists_resolves h
  obtain rfl : arguments' = arguments :=
    (Prod.mk.inj (Option.some.inj ((hdecode hresolves).symm.trans hw))).2
  exact hresolves

/-- **What is read off a word is a line with this word**, with the values in decimal digits. -/
theorem encode_of_decode? (h : decode? w = some (name, arguments)) (scope : Scope) :
    encode scope name (Text.join " " (arguments.map Argument.text)) = .ok w := by
  obtain ⟨entry, hentry, hopcode, rfl, hread⟩ := exists_entry_of_decode? h
  have hnibble : ∀ x : Int, IsNibble (x % 0x10) := fun x => ⟨by omega, by omega⟩
  obtain ⟨hplain, row⟩ := Form.tabulates_of_read (hnibble _) (hnibble _) (hnibble _) hread scope
  have hname : Text.upper entry.name = entry.name := by
    obtain ⟨m, rfl⟩ := mem_instructionSet_iff.mp hentry
    exact m.upper_name
  have hwords : Text.words (Text.join " " (arguments.map Argument.text)) =
      arguments.map Argument.text := by
    refine Text.words_join fun s hs => ?_
    obtain ⟨x, hx, rfl⟩ := List.mem_map.mp hs
    exact ⟨(hplain x hx).nonempty, (hplain x hx).solid⟩
  refine encode_eq_ok_iff.mpr ⟨entry, hentry, hname, arguments, _, _, _, hwords.symm ▸ row, ?_⟩
  omega

theorem isSome_decode?_iff : (decode? w).isSome ↔ IsInstructionWord w := by
  rw [isInstructionWord_iff]
  constructor
  · intro h
    obtain ⟨⟨name, arguments⟩, hdecode⟩ := Option.isSome_iff_exists.mp h
    obtain ⟨entry, hentry, hopcode, -, hread⟩ := exists_entry_of_decode? hdecode
    exact ⟨entry, hentry, hopcode, Form.isSome_read_iff.mp (Option.isSome_of_eq_some hread)⟩
  · rintro ⟨entry, hentry, hopcode, hadmits⟩
    rw [Instruction.decode?_eq hentry hopcode, Option.isSome_map]
    exact Form.isSome_read_iff.mpr hadmits

/-- **Lines have the same word if and only if they say the same.** The operands of a line with a
word stand for one list of arguments, and two lines with words have the same word if and only if
their names agree in upper case and their arguments are the same. The words of lines are those that
the opcode and the fields tell. -/
theorem encode_decodable :
    (∀ (scope scope' : Scope) (word word' args args' : String) (w w' : Int),
      encode scope word args = .ok w → encode scope' word' args' = .ok w' →
      ∃ arguments arguments', (∀ x, Resolves scope word args x ↔ x = arguments) ∧
        (∀ x, Resolves scope' word' args' x ↔ x = arguments') ∧
        (w = w' ↔ Text.upper word = Text.upper word' ∧ arguments = arguments')) ∧
    ∀ (scope : Scope) (w : Int),
      (∃ word args, encode scope word args = .ok w) ↔ IsInstructionWord w := by
  -- the word of a line determines its arguments, as both are read off it
  have hunique : ∀ {scope word args w}, encode scope word args = .ok w → ∃ arguments,
      decode? w = some (Text.upper word, arguments) ∧
        ∀ x, Resolves scope word args x ↔ x = arguments := by
    intro scope word args w h
    obtain ⟨arguments, hresolves⟩ := exists_resolves h
    have hdecode := (resolves_iff h).mp hresolves
    refine ⟨arguments, hdecode, fun x => ?_⟩
    rw [resolves_iff h, hdecode]
    simp [eq_comm]
  constructor
  · intro scope scope' word word' args args' w w' h h'
    obtain ⟨arguments, hdecode, hall⟩ := hunique h
    obtain ⟨arguments', hdecode', hall'⟩ := hunique h'
    refine ⟨arguments, arguments', hall, hall', ?_⟩
    constructor
    · rintro rfl
      exact Prod.mk.inj (Option.some.inj (hdecode.symm.trans hdecode'))
    · rintro ⟨hword, rfl⟩
      -- the same line is read off both words
      rw [← hword] at hdecode'
      exact Except.ok.inj
        ((encode_of_decode? hdecode scope).symm.trans (encode_of_decode? hdecode' scope))
  · intro scope w
    rw [← isSome_decode?_iff, Option.isSome_iff_exists]
    constructor
    · rintro ⟨word, args, h⟩
      obtain ⟨arguments, hdecode, -⟩ := hunique h
      exact ⟨_, hdecode⟩
    · rintro ⟨⟨name, arguments⟩, hdecode⟩
      exact ⟨_, _, encode_of_decode? hdecode scope⟩

/-- Two spellings of a branch with the same word, and a branch on a flag with another. -/
theorem encode_decodable_spelled :
    let scope := Bindings.scope (.ofList [("RA", 0), ("k", 5)])
    let scope' := Bindings.scope .empty
    encode scope "brn" "RA ZPZ k" = .ok 0xE053 ∧ encode scope' "BRN" "$_0 PZ 5" = .ok 0xE053 ∧
      encode scope' "BRN" "C 5" = .ok 0xE059 ∧
      ∃ arguments arguments', arguments ≠ arguments' ∧
        (∀ x, Resolves scope "brn" "RA ZPZ k" x ↔ x = arguments) ∧
        (∀ x, Resolves scope' "BRN" "$_0 PZ 5" x ↔ x = arguments) ∧
        ∀ x, Resolves scope' "BRN" "C 5" x ↔ x = arguments' := by
  intro scope scope'
  have hvalue : encode scope "brn" "RA ZPZ k" = .ok 0xE053 :=
    toOption_eq_some.mp (by decide +kernel)
  have hvalue' : encode scope' "BRN" "$_0 PZ 5" = .ok 0xE053 :=
    toOption_eq_some.mp (by decide +kernel)
  have hflag : encode scope' "BRN" "C 5" = .ok 0xE059 := toOption_eq_some.mp (by decide +kernel)
  have hupper : Text.upper "brn" = Text.upper "BRN" := by decide +kernel
  obtain ⟨arguments, arguments', hall, hall', hsame⟩ :=
    encode_decodable.1 _ _ _ _ _ _ _ _ hvalue hvalue'
  obtain ⟨flagged, arguments₂, hflagged, hall₂, hother⟩ :=
    encode_decodable.1 _ _ _ _ _ _ _ _ hflag hvalue
  obtain rfl : arguments = arguments' := (hsame.mp rfl).2
  obtain rfl : arguments₂ = arguments := (hall arguments₂).mp ((hall₂ arguments₂).mpr rfl)
  refine ⟨hvalue, hvalue', hflag, arguments₂, flagged, ?_, hall, hall', hflagged⟩
  rintro rfl
  exact absurd (hother.mpr ⟨hupper.symm, rfl⟩) (by decide)

end Instruction

end NibbleAsm
