import NibbleAsm.Proofs.Decoding

/-!
# Pseudo-instructions and what they stand for

A pseudo-instruction is rewritten as text: its operands are put into the fields of a template, and
the text is split again. No operand can be changed, merged or split on this way, since it is put in
as it is and is a word of its line.
A word is loaded without text, by packing two words of its own, and these are the words of the two
instructions that load its bytes.

## Main definitions

* `StandsFor`: the pseudo-instructions that stand for one instruction
* `Instruction.HasWord`: the word of an instruction with given operands

## Main results

* `Text.fillTemplate_field`: what is put into a field is put in as it is
* `StandsFor.rewrite?_eq`: the template of a pseudo-instruction, filled with its operands
* `Pseudo.expand_eq_ok_iff`: the command of a pseudo-instruction that stands for one instruction
* `StandsFor.words_join`: the operands of the instruction are found again in its text
* `Pseudo.holds_of_load`, `Pseudo.load_of_holds`: the words that load a word
* `Command.ofPseudo_meaning`: a pseudo-instruction has the words of what it stands for
-/

namespace NibbleAsm

/-- A pseudo-instruction with operands stands for an instruction with operands. -/
inductive StandsFor : Pseudo → List String → Mnemonic → List String → Prop
  | copy (s d : String) : StandsFor .CPY [s, d] .ADI [s, "0", d]
  | nothing : StandsFor .NOP [] .ADI ["R0", "0", "R0"]
  | increment (r : String) : StandsFor .INC [r] .ADI [r, "1", r]
  | decrement (r : String) : StandsFor .DEC [r] .SBI [r, "1", r]
  | jump (a : String) : StandsFor .JMP [a] .BRN ["0", "NZP", a]

/-- The line of an instruction with given operands has a word, however the operands are spaced. -/
def Instruction.HasWord (scope : Scope) (name : String) (operands : List String) (w : Int) : Prop :=
  (∃ text, Text.words text = operands) ∧
    ∀ text, Text.words text = operands → encode scope name text = .ok w

/-! ## One instruction -/

section Text

variable {p : Pseudo} {m : Mnemonic} {name args : String} {given operands : List String}

/-- The operands of the instruction are those of the line and some of its own. -/
theorem StandsFor.mem_or_mem (h : StandsFor p given m operands) {s : String}
    (hs : s ∈ operands) : s ∈ given ∨ s ∈ ["0", "1", "R0", "NZP"] := by
  cases h <;> simp only [List.mem_cons, List.not_mem_nil, or_false] at hs ⊢ <;> tauto

/-- **The operands of the instruction are found again in its text**, whatever their characters. -/
theorem StandsFor.words_join (h : StandsFor p (Text.words args) m operands) :
    Text.words (Text.join " " operands) = operands := by
  have hplain : ∀ s ∈ ["0", "1", "R0", "NZP"], IsPlain s := by decide +kernel
  refine Text.words_join fun s hs => ?_
  rcases h.mem_or_mem hs with hgiven | hown
  · exact Text.solid_of_mem_words hgiven
  · exact ⟨(hplain s hown).nonempty, (hplain s hown).solid⟩

theorem twoOperands_eq_ok_iff {s t : String} :
    twoOperands name args = .ok (s, t) ↔ Text.words args = [s, t] := by
  unfold twoOperands
  split <;> simp_all [failCount, fail_ne_ok]

/-- The words of an operand text are divided when their number is right. -/
theorem splitOperands_eq_ok_iff {count : Nat} {expected : Option String} :
    splitOperands name args [(count : Int)] expected = .ok given ↔
      given = Text.words args ∧ (Text.words args).length = count := by
  unfold splitOperands
  dsimp only
  split
  · next h =>
    rw [List.contains_iff_mem, List.mem_singleton, Int.ofNat_inj] at h
    simp [h, eq_comm]
  · next h =>
    rw [List.contains_iff_mem, List.mem_singleton, Int.ofNat_inj] at h
    simp [h, failCount, fail_ne_ok]

end Text

/-! ## Templates -/

namespace Text

variable {given : List String} {before : String}

theorem fillFields_of_not_mem (given : List String) {cs : List Char} (h : '\x7b' ∉ cs)
    (rest : List Char) :
    fillFields given (cs ++ rest) = cs ++ fillFields given rest := by
  induction cs with
  | nil => rfl
  | cons c cs ih =>
    obtain ⟨hc, hcs⟩ := List.ne_and_not_mem_of_not_mem_cons h
    rw [List.cons_append, List.cons_append, fillFields, ih hcs]
    rintro digit more rfl
    exact absurd rfl hc

/-- A template without fields is kept. -/
theorem fillTemplate_of_not_mem (h : '\x7b' ∉ before.toList) :
    fillTemplate before given = before := by
  have hfill := fillFields_of_not_mem given h []
  rw [List.append_nil] at hfill
  rw [fillTemplate, hfill]
  simp [fillFields]

/-- **What is put in a field is put in as it is**, whatever its characters: the text in front of the
field is kept, and only the text behind it is searched for more fields. -/
theorem fillTemplate_field (h : '\x7b' ∉ before.toList) {n : Nat} (hn : n < 10) (rest : String) :
    fillTemplate (before ++ field n ++ rest) given =
      before ++ given.getD n "" ++ fillTemplate rest given := by
  have hdigit : ∀ n < 10, (Nat.digitChar n).toNat - '0'.toNat = n := by decide
  rw [← String.toList_inj, fillTemplate, fillTemplate, field]
  simp only [String.toList_append, String.toList_ofList, List.append_assoc]
  rw [fillFields_of_not_mem given h]
  simp only [List.cons_append, List.nil_append, fillFields, hdigit n hn]

end Text

/-- The template of a pseudo-instruction is filled with its operands. -/
theorem StandsFor.rewrite?_eq {p : Pseudo} {given operands : List String} {m : Mnemonic}
    (h : StandsFor p given m operands) :
    ∃ template, p.rewrite? = some ⟨m, template, given.length⟩ ∧
      Text.fillTemplate template given = Text.join " " operands := by
  -- each template is taken apart at its fields, and what is left of it is the joined text
  cases h with
  | copy s d =>
    have htemplate : "{0} 0 {1}" = "" ++ Text.field 0 ++ (" 0 " ++ Text.field 1 ++ "") := by decide
    refine ⟨_, rfl, ?_⟩
    rw [htemplate, Text.fillTemplate_field (by decide) (by decide),
      Text.fillTemplate_field (by decide) (by decide), Text.fillTemplate_of_not_mem (by decide)]
    rw [← String.toList_inj, Text.join, String.toList_intercalate]
    simp [List.intercalate]
  | nothing => exact ⟨_, rfl, Text.fillTemplate_of_not_mem (by decide)⟩
  | increment r | decrement r =>
    have htemplate : "{0} 1 {0}" = "" ++ Text.field 0 ++ (" 1 " ++ Text.field 0 ++ "") := by decide
    refine ⟨_, rfl, ?_⟩
    rw [htemplate, Text.fillTemplate_field (by decide) (by decide),
      Text.fillTemplate_field (by decide) (by decide), Text.fillTemplate_of_not_mem (by decide)]
    rw [← String.toList_inj, Text.join, String.toList_intercalate]
    simp [List.intercalate]
  | jump a =>
    have htemplate : "0 NZP {0}" = "0 NZP " ++ Text.field 0 ++ "" := by decide
    refine ⟨_, rfl, ?_⟩
    rw [htemplate, Text.fillTemplate_field (by decide) (by decide),
      Text.fillTemplate_of_not_mem (by decide)]
    rw [← String.toList_inj, Text.join, String.toList_intercalate]
    simp [List.intercalate]

/-- Only a load of a word takes more than one instruction. -/
theorem Pseudo.exists_rewrite {p : Pseudo} (h : p ≠ .WRD) : ∃ r, p.rewrite? = some r := by
  cases p with
  | WRD => exact absurd rfl h
  | CPY | NOP | INC | DEC | JMP => exact ⟨_, rfl⟩

/-- Operands in the right number have an instruction to stand for. -/
theorem exists_standsFor {p : Pseudo} {r : Pseudo.Rewrite} {given : List String}
    (hr : p.rewrite? = some r) (hcount : given.length = r.operandCount) :
    ∃ operands, StandsFor p given r.target operands ∧
      Text.fillTemplate r.template given = Text.join " " operands := by
  obtain ⟨m, operands, stands⟩ : ∃ m operands, StandsFor p given m operands := by
    cases p with
    | CPY =>
      cases hr
      obtain ⟨s, d, rfl⟩ := List.length_eq_two.mp hcount
      exact ⟨_, _, .copy s d⟩
    | NOP =>
      cases hr
      obtain rfl := List.length_eq_zero_iff.mp hcount
      exact ⟨_, _, .nothing⟩
    | INC =>
      cases hr
      obtain ⟨r, rfl⟩ := List.length_eq_one_iff.mp hcount
      exact ⟨_, _, .increment r⟩
    | DEC =>
      cases hr
      obtain ⟨r, rfl⟩ := List.length_eq_one_iff.mp hcount
      exact ⟨_, _, .decrement r⟩
    | JMP =>
      cases hr
      obtain ⟨a, rfl⟩ := List.length_eq_one_iff.mp hcount
      exact ⟨_, _, .jump a⟩
    | WRD => cases hr
  obtain ⟨template, hr', hfill⟩ := stands.rewrite?_eq
  cases hr.symm.trans hr'
  exact ⟨operands, stands, hfill⟩

theorem Pseudo.ofName?_eq_some_iff {word : String} {p : Pseudo} :
    Pseudo.ofName? word = some p ↔ Text.upper word = p.name :=
  find?_eq_some_iff_name (by cases p <;> decide)

section Single

variable {scope : Scope} {word args text : String} {m : Mnemonic} {operands : List String}
  {w : Int} {ws : List Int} {p : Pseudo} {c : Command}

/-- The word of an instruction depends on the words of its operand text alone. -/
theorem Instruction.hasWord_iff (h : Text.words text = operands) :
    HasWord scope word operands w ↔ encode scope word text = .ok w := by
  refine ⟨fun hword => hword.2 text h, fun hencode => ⟨⟨text, h⟩, fun text' h' => ?_⟩⟩
  rw [encode_eq_ok_iff, h] at hencode
  rw [encode_eq_ok_iff, h']
  exact hencode

/-- **A pseudo-instruction that stands for an instruction is this instruction.** -/
theorem Pseudo.expand_eq_ok_iff (hp : p ≠ .WRD) :
    p.expand args = .ok c ↔
      ∃ m operands, StandsFor p (Text.words args) m operands ∧
        (Instruction.ofMnemonic m (Text.join " " operands)).map Command.instruction = .ok c := by
  obtain ⟨r, hr⟩ := exists_rewrite hp
  simp only [expand, hr, Rewrite.expand]
  constructor
  · intro h
    obtain ⟨i, hi, rfl⟩ := map_eq_ok.mp h
    obtain ⟨given, hgiven, hi⟩ := bind_eq_ok.mp hi
    obtain ⟨rfl, hcount⟩ := splitOperands_eq_ok_iff.mp hgiven
    obtain ⟨operands, stands, hfill⟩ := exists_standsFor hr hcount
    exact ⟨r.target, operands, stands, map_eq_ok.mpr ⟨i, hfill ▸ hi, rfl⟩⟩
  · rintro ⟨m, operands, stands, h⟩
    obtain ⟨template, hr', hfill⟩ := stands.rewrite?_eq
    obtain rfl := Option.some.inj (hr.symm.trans hr')
    obtain ⟨i, hi, rfl⟩ := map_eq_ok.mp h
    refine map_eq_ok.mpr ⟨i, bind_eq_ok.mpr ⟨_, splitOperands_eq_ok_iff.mpr ⟨rfl, rfl⟩, ?_⟩, rfl⟩
    exact hfill ▸ hi

/-- One instruction has the word of its line. -/
theorem Pseudo.words_ofMnemonic :
    ((Instruction.ofMnemonic m text).map Command.instruction >>= Command.words scope) = .ok ws ↔
      ∃ w, ws = [w] ∧ Instruction.encode scope m.name text = .ok w := by
  have hname : Mnemonic.ofName? m.name = some m := Mnemonic.ofName?_eq_some_iff.mpr m.upper_name
  -- both sides read the instruction and then find its word
  simp only [Instruction.encode, Instruction.parse, hname, Command.words, bind_eq_ok, map_eq_ok]
  constructor
  · rintro ⟨_, ⟨i, hi, rfl⟩, h⟩
    obtain ⟨w, hw, hws⟩ := bind_eq_ok.mp h
    exact ⟨w, (Except.ok.inj hws).symm, i, hi, hw⟩
  · rintro ⟨w, rfl, i, hi, hw⟩
    exact ⟨_, ⟨i, hi, rfl⟩, bind_eq_ok.mpr ⟨w, hw, rfl⟩⟩

end Single

/-! ## Loading a word -/

section Load

variable {scope : Scope} {args text v r : String} {x k : Int} {ws : List Int} {c : Command}

theorem Pseudo.expand_load_eq_ok_iff :
    Pseudo.WRD.expand args = .ok c ↔ ∃ v r value register, Text.words args = [v, r] ∧
      Operand.parse .word v = .ok value ∧ Operand.parse .nibble r = .ok register ∧
      c = .loadWord value register := by
  constructor
  · intro h
    obtain ⟨⟨v, r⟩, hwords, h⟩ := bind_eq_ok.mp h
    obtain ⟨value, hvalue, h⟩ := bind_eq_ok.mp h
    obtain ⟨register, hregister, h⟩ := bind_eq_ok.mp h
    exact ⟨v, r, value, register, twoOperands_eq_ok_iff.mp hwords, hvalue, hregister,
      (Except.ok.inj h).symm⟩
  · rintro ⟨v, r, value, register, hwords, hvalue, hregister, rfl⟩
    refine bind_eq_ok.mpr ⟨(v, r), twoOperands_eq_ok_iff.mpr hwords, ?_⟩
    exact bind_eq_ok.mpr ⟨value, hvalue, bind_eq_ok.mpr ⟨register, hregister, rfl⟩⟩

/-- A byte is packed between an opcode and a register. -/
theorem packWord_byte {opcode byte : Int} (ho : IsNibble opcode) (hlo : 0 ≤ byte)
    (hhi : byte < 0x100) (hk : IsNibble k) :
    packWord opcode (splitNibbles byte).1 (splitNibbles byte).2 k =
      .ok (opcode * 0x1000 + byte * 0x10 + k) := by
  obtain ⟨hhigh, hlow⟩ := isNibble_splitNibbles byte ⟨hlo, hhi⟩
  rw [packWord_of_isNibble ho hhigh hlow hk]
  simp only [splitNibbles, Except.ok.injEq]
  omega

/-- The words of a load, from the value and the register. -/
theorem Command.words_loadWord {value register : Operand} (hvalue : value.resolve scope = .ok x)
    (hregister : register.resolve scope = .ok k) (hx : IsWord x) (hk : IsNibble k) :
    Command.words scope (.loadWord value register) =
      .ok [0x1000 + x / 0x100 * 0x10 + k, 0x2000 + x % 0x100 * 0x10 + k] := by
  obtain ⟨hlo, hhi⟩ := hx
  -- either byte is packed as the operand of a byte instruction would be
  have hhigh := packWord_byte (isNibble_opcode .HBY) (by omega : 0 ≤ x / 0x100) (by omega) hk
  have hlow := packWord_byte (isNibble_opcode .LBY) (by omega : 0 ≤ x % 0x100) (by omega) hk
  unfold Command.words
  simp only [hvalue, hregister, bind, Except.bind, hhigh, hlow]
  rfl

/-- An instruction with a byte in decimal digits has the byte between its opcode and its
register. -/
theorem Instruction.hasWord_byte {name : String} {opcode byte : Int}
    (hentry : ⟨name, opcode, .byteRegister⟩ ∈ instructionSet) (hname : Text.upper name = name)
    (hlo : 0 ≤ byte) (hhi : byte < 0x100) (hr : scope.Holds 0 15 r k) (hmem : r ∈ Text.words args) :
    HasWord scope name [Text.decimal byte, r] (opcode * 0x1000 + byte * 0x10 + k) := by
  have hbyte : scope.Holds 0 255 (Text.decimal byte) byte :=
    Scope.holds_decimal (by decide) (by decide) hlo (by omega)
  have hwords : Text.words (Text.join " " [Text.decimal byte, r]) = [Text.decimal byte, r] := by
    have hplain := isPlain_decimal hlo
    refine Text.words_join (List.forall_mem_cons.mpr ⟨⟨hplain.nonempty, hplain.solid⟩, ?_⟩)
    exact List.forall_mem_singleton.mpr (Text.solid_of_mem_words hmem)
  have hrow := Form.Tabulates.byteRegister hbyte hr
  rw [← hwords] at hrow
  refine (hasWord_iff hwords).mpr ?_
  refine encode_eq_ok_iff.mpr ⟨_, hentry, hname, _, _, _, _, hrow, ?_⟩
  dsimp only
  omega

/-- **A line that loads a word has words only if its operands are a word and a register.** -/
theorem Pseudo.holds_of_load
    (h : (Pseudo.WRD.expand args >>= Command.words scope) = .ok ws) :
    ∃ v r x k, Text.words args = [v, r] ∧ scope.Holds 0 0xFFFF v x ∧ scope.Holds 0 15 r k := by
  obtain ⟨c, hc, h⟩ := bind_eq_ok.mp h
  obtain ⟨v, r, value, register, hwords, hvalue, hregister, rfl⟩ := expand_load_eq_ok_iff.mp hc
  obtain ⟨x, hx, h⟩ := bind_eq_ok.mp h
  obtain ⟨k, hk, -⟩ := bind_eq_ok.mp h
  have hholds : scope.Holds 0 0xFFFF v x := Scope.holds_of_resolve (w := .word) rfl hvalue hx
  exact ⟨v, r, x, k, hwords, hholds, Scope.holds_of_nibble hregister hk⟩

theorem Pseudo.load_of_holds (hwords : Text.words args = [v, r]) (hv : scope.Holds 0 0xFFFF v x)
    (hr : scope.Holds 0 15 r k) :
    (Pseudo.WRD.expand args >>= Command.words scope) =
      .ok [0x1000 + x / 0x100 * 0x10 + k, 0x2000 + x % 0x100 * 0x10 + k] := by
  obtain ⟨value, hvalue, hx⟩ := hv.exists_operand (w := .word) rfl
  obtain ⟨register, hregister, hk⟩ := hr.exists_nibble
  have hword : IsWord x := ⟨hv.least_le, Int.lt_add_one_of_le hv.le_greatest⟩
  refine bind_eq_ok.mpr
    ⟨.loadWord value register, ?_, Command.words_loadWord hx hk hword hr.isNibble⟩
  exact expand_load_eq_ok_iff.mpr ⟨v, r, value, register, hwords, hvalue, hregister, rfl⟩

end Load

/-! ## Lines -/

namespace Command

variable {word args : String} {p : Pseudo}

theorem ofPseudo_of_name (h : Text.upper word = p.name) : ofPseudo word args = p.expand args := by
  rw [ofPseudo, Pseudo.ofName?_eq_some_iff.mpr h]

/-- No instruction has the name of a pseudo-instruction. -/
theorem ofOperation_of_name (h : Text.upper word = p.name) :
    ofOperation word args = ofPseudo word args := by
  have hnone : Mnemonic.ofName? word = none := by
    rw [Option.eq_none_iff_forall_ne_some]
    intro m hm
    have hname : p.name = m.name := h.symm.trans (Mnemonic.ofName?_eq_some_iff.mp hm)
    revert hname
    cases p <;> cases m <;> decide
  rw [ofOperation, hnone]

/-- **A pseudo-instruction has the words of what it stands for.** The line of a pseudo-instruction
other than a load has a word if and only if its operands are as many as they should be and the
instruction that it stands for has this word, and the text of this instruction has the operands
unchanged. The line of a load has words if and only if it has a value of sixteen bits and a
register, and these are the words of the instructions that load the two bytes of the value. -/
theorem ofPseudo_meaning (scope : Scope) (word args : String) :
    (∀ p : Pseudo, p ≠ .WRD → Text.upper word = p.name →
      ofOperation word args = ofPseudo word args ∧
      (∀ m operands, StandsFor p (Text.words args) m operands →
        Text.words (Text.join " " operands) = operands) ∧
      ∀ ws, (ofPseudo word args >>= words scope) = .ok ws ↔
        ∃ m operands, StandsFor p (Text.words args) m operands ∧
          ∃ w, ws = [w] ∧ Instruction.HasWord scope m.name operands w) ∧
    (Text.upper word = "WRD" →
      ofOperation word args = ofPseudo word args ∧
      ((∃ ws, (ofPseudo word args >>= words scope) = .ok ws) ↔
        ∃ v r x k, Text.words args = [v, r] ∧ scope.Holds 0 0xFFFF v x ∧ scope.Holds 0 15 r k) ∧
      ∀ v r x k, Text.words args = [v, r] → scope.Holds 0 0xFFFF v x → scope.Holds 0 15 r k →
        ∃ high low, (ofPseudo word args >>= words scope) = .ok [high, low] ∧
          Instruction.HasWord scope "HBY" [Text.decimal (x / 0x100), r] high ∧
          Instruction.HasWord scope "LBY" [Text.decimal (x % 0x100), r] low ∧
          high / 0x10 % 0x100 * 0x100 + low / 0x10 % 0x100 = x ∧
          high % 0x10 = k ∧ low % 0x10 = k) := by
  constructor
  · intro p hp hname
    refine ⟨ofOperation_of_name hname, fun m operands h => h.words_join, fun ws => ?_⟩
    rw [ofPseudo_of_name hname]
    constructor
    · intro h
      obtain ⟨c, hc, h⟩ := bind_eq_ok.mp h
      obtain ⟨m, operands, stands, hsingle⟩ := (Pseudo.expand_eq_ok_iff hp).mp hc
      obtain ⟨w, hws, hw⟩ := Pseudo.words_ofMnemonic.mp (bind_eq_ok.mpr ⟨c, hsingle, h⟩)
      exact ⟨m, operands, stands, w, hws, (Instruction.hasWord_iff stands.words_join).mpr hw⟩
    · rintro ⟨m, operands, stands, w, hws, hw⟩
      have hencode := (Instruction.hasWord_iff stands.words_join).mp hw
      obtain ⟨c, hsingle, h⟩ := bind_eq_ok.mp (Pseudo.words_ofMnemonic.mpr ⟨w, hws, hencode⟩)
      exact bind_eq_ok.mpr ⟨c, (Pseudo.expand_eq_ok_iff hp).mpr ⟨m, operands, stands, hsingle⟩, h⟩
  · intro hload
    have hname : Text.upper word = Pseudo.WRD.name := hload
    rw [ofPseudo_of_name hname]
    refine ⟨(ofOperation_of_name hname).trans (ofPseudo_of_name hname), ?_, ?_⟩
    · constructor
      · rintro ⟨ws, h⟩
        exact Pseudo.holds_of_load h
      · rintro ⟨v, r, x, k, hwords, hv, hr⟩
        exact ⟨_, Pseudo.load_of_holds hwords hv hr⟩
    · intro v r x k hwords hv hr
      have hmem : r ∈ Text.words args := by simp [hwords]
      have hlo := hv.least_le
      have hhi := hv.le_greatest
      obtain ⟨hk₀, hk₁⟩ := hr.isNibble
      refine ⟨_, _, Pseudo.load_of_holds hwords hv hr, ?_, ?_, ?_, ?_, ?_⟩
      · exact Instruction.hasWord_byte (by decide : ⟨"HBY", 1, .byteRegister⟩ ∈ instructionSet)
          (by decide +kernel) (by omega) (by omega) hr hmem
      · exact Instruction.hasWord_byte (by decide : ⟨"LBY", 2, .byteRegister⟩ ∈ instructionSet)
          (by decide +kernel) (by omega) (by omega) hr hmem
      all_goals omega

/-- An increment and a load, with braces in the name of the register. -/
theorem ofPseudo_meaning_braces :
    let scope := Bindings.scope (.ofList [("\x7b0\x7d", 7), ("v", 0xBEEF)])
    Text.upper "Inc" = Pseudo.INC.name ∧
      (ofPseudo "Inc" " \x7b0\x7d" >>= words scope) = .ok [0x7717] ∧
      Text.upper "wrd" = "WRD" ∧ Text.words "v \x7b0\x7d" = ["v", "\x7b0\x7d"] ∧
      scope.Holds 0 0xFFFF "v" 0xBEEF ∧ scope.Holds 0 15 "\x7b0\x7d" 7 ∧
      ∃ high low, (ofPseudo "wrd" "v \x7b0\x7d" >>= words scope) = .ok [high, low] ∧
        high / 0x10 % 0x100 * 0x100 + low / 0x10 % 0x100 = 0xBEEF := by
  intro scope
  have hincrement : Text.upper "Inc" = Pseudo.INC.name := by decide +kernel
  have hload : Text.upper "wrd" = "WRD" := by decide +kernel
  have hwords : Text.words " \x7b0\x7d" = ["\x7b0\x7d"] := by decide +kernel
  have htext : Text.words "\x7b0\x7d 1 \x7b0\x7d" = ["\x7b0\x7d", "1", "\x7b0\x7d"] := by
    decide +kernel
  have hencode : Instruction.encode scope "ADI" "\x7b0\x7d 1 \x7b0\x7d" = .ok 0x7717 :=
    toOption_eq_some.mp (by decide +kernel)
  have hoperands : Text.words "v \x7b0\x7d" = ["v", "\x7b0\x7d"] := by decide +kernel
  have hv : scope.Holds 0 0xFFFF "v" 0xBEEF :=
    ⟨.symbol (by decide +kernel) (by decide +kernel), by decide, by decide⟩
  have hr : scope.Holds 0 15 "\x7b0\x7d" 7 :=
    ⟨.symbol (by decide +kernel) (by decide +kernel), by decide, by decide⟩
  obtain ⟨-, -, hone⟩ := (ofPseudo_meaning scope "Inc" " \x7b0\x7d").1 .INC (by decide) hincrement
  obtain ⟨-, -, htwo⟩ := (ofPseudo_meaning scope "wrd" "v \x7b0\x7d").2 hload
  obtain ⟨high, low, hwrd, -, -, hbytes, -⟩ := htwo _ _ _ _ hoperands hv hr
  refine ⟨hincrement, (hone _).mpr ?_, hload, hoperands, hv, hr, high, low, hwrd, hbytes⟩
  rw [hwords]
  exact ⟨_, _, .increment _, _, rfl, (Instruction.hasWord_iff htext).mpr hencode⟩

end Command

end NibbleAsm
