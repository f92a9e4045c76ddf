import NibbleAsm.Proofs.Numeral
import Mathlib.Data.Finset.Dedup

/-!
# The table of the instruction set

An instruction is checked in part when its line is read and in part when its word is made. This
module states the instruction set as one table, with a row for each form of operands: what the
operands have to be, what they stand for, and which fields they fill. Both steps together do exactly
what the table says, and whatever is not in the table is reported as an error of the source.

## Main definitions

* `Scope.Denotes`, `Scope.Holds`: the value that a word of an operand text stands for
* `Argument`: what an operand stands for
* `Form.Tabulates`: the rows of the table
* `instructionSet`: the names and opcodes of the instructions, with their forms
* `Scope.IsMapping`: scopes in which a name has a value or is undefined

## Main results

* `exists_tabulates`, `Form.Tabulates.exists_fields`: the fields of an instruction are those of a
  row
* `Instruction.encode_eq_ok_iff`: the words of instructions
* `Instruction.encode_tabulated`: an instruction is encoded as the table says, or reported
-/

namespace NibbleAsm

/-! ## What operands stand for -/

/-- The value that a word of an operand text stands for. A word that starts like a number is a
literal, and any other is a symbol. -/
inductive Scope.Denotes (scope : Scope) (s : String) : Int → Prop
  | literal {n : Numeral} (starts : isLiteral s = true) (writes : n.Writes s)
      (short : ¬n.IsOverlong) : Denotes scope s n.value
  | symbol {v : Int} (free : isLiteral s = false) (mapped : scope s = .ok v) : Denotes scope s v

/-- A word stands for a value within bounds. -/
structure Scope.Holds (scope : Scope) (least greatest : Int) (s : String) (v : Int) : Prop where
  denotes : scope.Denotes s v
  least_le : least ≤ v
  le_greatest : v ≤ greatest

/-- What an operand stands for. A condition on a value is a set of letters, in which neither order
nor repetition matters. -/
inductive Argument where
  | value (v : Int)
  | direction (text : String)
  | letters (set : Finset Char)
  | flag (text : String)
  deriving DecidableEq

/-- The code of a condition on a value. -/
def letterCode (set : Finset Char) : Int :=
  4 * (if 'N' ∈ set then 1 else 0) + 2 * (if 'Z' ∈ set then 1 else 0) + if 'P' ∈ set then 1 else 0

/-- The codes of the conditions on flags. -/
def flagCodes : List (String × Int) :=
  [("V", 2), ("C", 1), ("-", 0)]

/-- The rows of the table of the instruction set: the operands of a form, what they stand for, and
the three fields of the word. -/
inductive Form.Tabulates (scope : Scope) :
    Form → List String → List Argument → Int → Int → Int → Prop
  | plain : Tabulates scope .plain [] [] 0 0 0
  | byteRegister {s t : String} {byte target : Int} (hs : scope.Holds 0 255 s byte)
      (ht : scope.Holds 0 15 t target) :
      Tabulates scope .byteRegister [s, t] [.value byte, .value target] (byte / 16) (byte % 16)
        target
  | sourceDestination {s t : String} {source destination : Int} (hs : scope.Holds 0 15 s source)
      (ht : scope.Holds 0 15 t destination) :
      Tabulates scope .sourceDestination [s, t] [.value source, .value destination] source 0
        destination
  | addressRegister {s t : String} {address stored : Int} (hs : scope.Holds 0 15 s address)
      (ht : scope.Holds 0 15 t stored) :
      Tabulates scope .addressRegister [s, t] [.value address, .value stored] address stored 0
  | threeFields {s t u : String} {first second third : Int} (hs : scope.Holds 0 15 s first)
      (ht : scope.Holds 0 15 t second) (hu : scope.Holds 0 15 u third) :
      Tabulates scope .threeFields [s, t, u] [.value first, .value second, .value third] first
        second third
  | shiftLeft {s t u : String} {source amount destination : Int} (hs : scope.Holds 0 15 s source)
      (ht : scope.Holds 1 8 t amount) (hu : scope.Holds 0 15 u destination) :
      Tabulates scope .shift [s, "L", t, u]
        [.value source, .direction "L", .value amount, .value destination] source (amount - 1)
        destination
  | shiftRight {s t u : String} {source amount destination : Int} (hs : scope.Holds 0 15 s source)
      (ht : scope.Holds 1 8 t amount) (hu : scope.Holds 0 15 u destination) :
      Tabulates scope .shift [s, "R", t, u]
        [.value source, .direction "R", .value amount, .value destination] source (amount - 1 + 8)
        destination
  | branchValue {s t u : String} {value address : Int} (hs : scope.Holds 0 15 s value)
      (nonempty : t.toList ≠ []) (letters : ∀ c ∈ t.toList, c ∈ ['N', 'Z', 'P'])
      (hu : scope.Holds 0 15 u address) :
      Tabulates scope .branch [s, t, u]
        [.value value, .letters t.toList.toFinset, .value address] value address
        (letterCode t.toList.toFinset)
  | branchFlag {s t : String} {code address : Int} (flag : (s, code) ∈ flagCodes)
      (ht : scope.Holds 0 15 t address) :
      Tabulates scope .branch [s, t] [.flag s, .value address] 0 address (8 + code)
  | register {s : String} {target : Int} (hs : scope.Holds 0 15 s target) :
      Tabulates scope .register [s] [.value target] 0 0 target

/-- The name of an instruction with its opcode and the form of its operands. -/
structure InstructionEntry where
  name : String
  opcode : Int
  form : Form
  deriving DecidableEq, Repr

/-- The instruction set. -/
def instructionSet : List InstructionEntry :=
  [⟨"END", 0x0, .plain⟩, ⟨"HBY", 0x1, .byteRegister⟩, ⟨"LBY", 0x2, .byteRegister⟩,
   ⟨"LOD", 0x3, .sourceDestination⟩, ⟨"STR", 0x4, .addressRegister⟩, ⟨"ADD", 0x5, .threeFields⟩,
   ⟨"SUB", 0x6, .threeFields⟩, ⟨"ADI", 0x7, .threeFields⟩, ⟨"SBI", 0x8, .threeFields⟩,
   ⟨"AND", 0x9, .threeFields⟩, ⟨"ORR", 0xA, .threeFields⟩, ⟨"XOR", 0xB, .threeFields⟩,
   ⟨"NOT", 0xC, .sourceDestination⟩, ⟨"SHF", 0xD, .shift⟩, ⟨"BRN", 0xE, .branch⟩,
   ⟨"SPC", 0xF, .register⟩]

/-! ## Operands in their fields -/

section Operands

variable {scope : Scope} {w : Width} {s : String} {o : Operand} {v : Int}

theorem Width.check_eq_ok_iff (hw : w.isSupported = true) {value : Int} {shown : String} :
    w.check value shown = .ok v ↔ value = v ∧ 0 ≤ v ∧ v < w.limit := by
  rw [check_of_isSupported hw]
  split_ifs with hneg hlt
  · simp only [fail_ne_ok, false_iff]
    omega
  · simp only [Except.ok.injEq]
    omega
  · simp only [fail_ne_ok, false_iff]
    omega

/-- An operand that is read and resolved stands for its value, which fits its field. -/
theorem Scope.holds_of_resolve (hw : w.isSupported = true) (parsed : Operand.parse w s = .ok o)
    (resolved : o.resolve scope = .ok v) : scope.Holds 0 (w.limit - 1) s v := by
  unfold Operand.parse at parsed
  split at parsed
  · next starts =>
    cases hparse : Literal.parse w s with
    | error f => simp [hparse, Except.map] at parsed
    | ok value =>
      rw [hparse] at parsed
      cases parsed
      cases resolved
      obtain ⟨n, writes, short, rfl, hlo, hhi⟩ := (Literal.parse_eq_ok_iff hw).mp hparse
      exact ⟨.literal starts writes short, hlo, Int.le_sub_one_of_lt hhi⟩
  · next free =>
    cases parsed
    obtain ⟨value, mapped, checked⟩ := bind_eq_ok.mp resolved
    obtain ⟨rfl, hlo, hhi⟩ := (Width.check_eq_ok_iff hw).mp checked
    exact ⟨.symbol (Bool.eq_false_iff.mpr free) mapped, hlo, Int.le_sub_one_of_lt hhi⟩

/-- A word that stands for a value which fits a field is read as an operand with this value. -/
theorem Scope.Holds.exists_operand (hw : w.isSupported = true)
    (h : scope.Holds 0 (w.limit - 1) s v) :
    ∃ o, Operand.parse w s = .ok o ∧ o.resolve scope = .ok v := by
  obtain ⟨denotes, hlo, hhi⟩ := h
  have hlt : v < w.limit := Int.lt_of_le_sub_one hhi
  unfold Operand.parse
  cases denotes with
  | literal starts writes short =>
    rw [if_pos starts, (Literal.parse_eq_ok_iff hw).mpr ⟨_, writes, short, rfl, hlo, hlt⟩]
    exact ⟨_, rfl, rfl⟩
  | symbol free mapped =>
    rw [if_neg (Bool.eq_false_iff.mp free)]
    refine ⟨_, rfl, ?_⟩
    exact bind_eq_ok.mpr ⟨v, mapped, (Width.check_eq_ok_iff hw).mpr ⟨rfl, hlo, hlt⟩⟩

theorem Scope.Holds.isNibble (h : scope.Holds 0 15 s v) : IsNibble v :=
  ⟨h.least_le, Int.lt_add_one_of_le h.le_greatest⟩

theorem Scope.holds_of_nibble (parsed : Fields.nibble s = .ok o)
    (resolved : o.resolve scope = .ok v) : scope.Holds 0 15 s v :=
  holds_of_resolve (w := .nibble) rfl parsed resolved

theorem Scope.Holds.exists_nibble (h : scope.Holds 0 15 s v) :
    ∃ o, Fields.nibble s = .ok o ∧ o.resolve scope = .ok v :=
  h.exists_operand (w := .nibble) rfl

end Operands

/-! ## Conditions and amounts -/

section Conditions

variable {s : String} {code amount amount' : Int}

/-- A condition on a value is a word of letters, and its code depends on their set. -/
theorem exists_parseValue_iff :
    (∃ condition, Condition.parseValue s = .ok condition ∧ condition.nibble = code) ↔
      s.toList ≠ [] ∧ (∀ c ∈ s.toList, c ∈ ['N', 'Z', 'P']) ∧
        letterCode s.toList.toFinset = code := by
  have hletters : (s.toList.all fun c => decide (c = 'N' ∨ c = 'Z' ∨ c = 'P')) = true ↔
      ∀ c ∈ s.toList, c ∈ ['N', 'Z', 'P'] := by
    simp [List.all_eq_true]
  have hcode : (Condition.value (s.toList.contains 'N') (s.toList.contains 'Z')
      (s.toList.contains 'P')).nibble = letterCode s.toList.toFinset := by
    simp only [Condition.nibble, letterCode, List.mem_toFinset, List.contains_iff_mem]
    split_ifs <;> rfl
  unfold Condition.parseValue
  dsimp only
  rw [← hletters, ← hcode, ← and_assoc]
  split_ifs with h
  · rw [and_iff_right h]
    exact ⟨fun ⟨_, hparse, hnibble⟩ => Except.ok.inj hparse ▸ hnibble,
      fun hnibble => ⟨_, rfl, hnibble⟩⟩
  · exact ⟨fun ⟨_, hparse, _⟩ => absurd hparse fail_ne_ok, fun h' => absurd h'.1 h⟩

/-- A condition on a flag is one of three words. -/
theorem exists_parseFlag_iff :
    (∃ condition, Condition.parseFlag s = .ok condition ∧ condition.nibble = code) ↔
      ∃ k, (s, k) ∈ flagCodes ∧ 8 + k = code := by
  unfold Condition.parseFlag
  split
  · simp [flagCodes, Condition.nibble, Flag.code]
  · simp [flagCodes, Condition.nibble, Flag.code]
  · simp [flagCodes, Condition.nibble, Flag.code]
  · next hoverflow hcarry hnever =>
    constructor
    · rintro ⟨_, hparse, _⟩
      exact absurd hparse fail_ne_ok
    · rintro ⟨k, hk, -⟩
      simp only [flagCodes, List.mem_cons, Prod.mk.injEq, List.not_mem_nil, or_false] at hk
      rcases hk with ⟨h, -⟩ | ⟨h, -⟩ | ⟨h, -⟩
      · exact (hoverflow h).elim
      · exact (hcarry h).elim
      · exact (hnever h).elim

theorem checkShiftAmount_eq_ok_iff :
    checkShiftAmount amount = .ok amount' ↔ amount' = amount ∧ 1 ≤ amount ∧ amount ≤ 8 := by
  unfold checkShiftAmount
  split_ifs with h
  · simp [h, eq_comm]
  · simp [h, fail_ne_ok]

end Conditions

/-! ## Forms -/

section Forms

variable {scope : Scope} {form : Form} {operands : List String} {f : Fields} {a b c : Int}

/-- **The fields of an instruction that is read are those of a row of the table.** -/
theorem exists_tabulates (parsed : Fields.parse? form operands = some (.ok f))
    (resolved : f.nibbles scope = .ok (a, b, c)) :
    ∃ arguments, form.Tabulates scope operands arguments a b c := by
  unfold Fields.parse? at parsed
  -- by form: the operands are read first, and then their values are put into the fields
  split at parsed
  case h_1 =>
    cases parsed
    cases resolved
    exact ⟨_, .plain⟩
  case h_2 =>
    simp only [Option.some.injEq, bind_eq_ok, Except.ok.injEq] at parsed
    obtain ⟨byte, hbyte, target, htarget, rfl⟩ := parsed
    simp only [Fields.nibbles, splitNibbles, bind_eq_ok, Except.ok.injEq, Prod.mk.injEq] at resolved
    obtain ⟨x, hx, y, hy, rfl, rfl, rfl⟩ := resolved
    have hholds : scope.Holds 0 255 _ x := Scope.holds_of_resolve (w := .byte) rfl hbyte hx
    exact ⟨_, .byteRegister hholds (Scope.holds_of_nibble htarget hy)⟩
  case h_3 =>
    simp only [Option.some.injEq, bind_eq_ok, Except.ok.injEq] at parsed
    obtain ⟨source, hsource, dest, hdest, rfl⟩ := parsed
    simp only [Fields.nibbles, bind_eq_ok, Except.ok.injEq, Prod.mk.injEq] at resolved
    obtain ⟨x, hx, y, hy, rfl, rfl, rfl⟩ := resolved
    exact ⟨_, .sourceDestination (Scope.holds_of_nibble hsource hx)
      (Scope.holds_of_nibble hdest hy)⟩
  case h_4 =>
    simp only [Option.some.injEq, bind_eq_ok, Except.ok.injEq] at parsed
    obtain ⟨address, haddress, stored, hstored, rfl⟩ := parsed
    simp only [Fields.nibbles, bind_eq_ok, Except.ok.injEq, Prod.mk.injEq] at resolved
    obtain ⟨x, hx, y, hy, rfl, rfl, rfl⟩ := resolved
    exact ⟨_, .addressRegister (Scope.holds_of_nibble haddress hx)
      (Scope.holds_of_nibble hstored hy)⟩
  case h_5 =>
    simp only [Option.some.injEq, bind_eq_ok, Except.ok.injEq] at parsed
    obtain ⟨first, hfirst, second, hsecond, third, hthird, rfl⟩ := parsed
    simp only [Fields.nibbles, bind_eq_ok, Except.ok.injEq, Prod.mk.injEq] at resolved
    obtain ⟨x, hx, y, hy, z, hz, rfl, rfl, rfl⟩ := resolved
    exact ⟨_, .threeFields (Scope.holds_of_nibble hfirst hx) (Scope.holds_of_nibble hsecond hy)
      (Scope.holds_of_nibble hthird hz)⟩
  case h_6 =>
    simp only [Option.some.injEq, bind_eq_ok] at parsed
    obtain ⟨direction, hdirection, source, hsource, amount, hamount, dest, hdest, hf⟩ := parsed
    -- an amount that is a literal is checked twice, and any amount is checked with its value
    have hshift : Fields.shift source direction amount dest = f := by
      cases amount with
      | literal value w =>
        obtain ⟨-, -, hf⟩ := bind_eq_ok.mp hf
        exact Except.ok.inj hf
      | symbol name w => exact Except.ok.inj hf
    subst hshift
    simp only [Fields.nibbles, bind_eq_ok, Except.ok.injEq, Prod.mk.injEq,
      checkShiftAmount_eq_ok_iff] at resolved
    obtain ⟨x, hx, n, ⟨rfl, hlo, hhi⟩, y, hy, z, hz, rfl, rfl, rfl⟩ := resolved
    have hholds : scope.Holds 1 8 _ n :=
      ⟨(Scope.holds_of_resolve (w := .word) rfl hamount hx).denotes, hlo, hhi⟩
    have htext := (ends_parse_direction reports_isAt _).of_ok hdirection
    cases direction with
    | left =>
      rw [if_pos rfl] at htext
      subst htext
      rw [if_neg (by decide), Int.add_zero]
      exact ⟨_, .shiftLeft (Scope.holds_of_nibble hsource hy) hholds
        (Scope.holds_of_nibble hdest hz)⟩
    | right =>
      rw [if_neg (by decide)] at htext
      subst htext
      exact ⟨_, .shiftRight (Scope.holds_of_nibble hsource hy) hholds
        (Scope.holds_of_nibble hdest hz)⟩
  case h_7 =>
    simp only [Option.some.injEq, bind_eq_ok, Except.ok.injEq] at parsed
    obtain ⟨condition, hcondition, value, hvalue, address, haddress, rfl⟩ := parsed
    simp only [Fields.nibbles, bind_eq_ok, Except.ok.injEq, Prod.mk.injEq] at resolved
    obtain ⟨x, hx, y, hy, rfl, rfl, rfl⟩ := resolved
    obtain ⟨nonempty, letters, hcode⟩ := exists_parseValue_iff.mp ⟨condition, hcondition, rfl⟩
    rw [← hcode]
    exact ⟨_, .branchValue (Scope.holds_of_nibble hvalue hx) nonempty letters
      (Scope.holds_of_nibble haddress hy)⟩
  case h_8 =>
    simp only [Option.some.injEq, bind_eq_ok, Except.ok.injEq] at parsed
    obtain ⟨condition, hcondition, address, haddress, rfl⟩ := parsed
    simp only [Fields.nibbles, Operand.resolve, bind_eq_ok, Except.ok.injEq, Prod.mk.injEq]
      at resolved
    obtain ⟨x, rfl, y, hy, rfl, rfl, rfl⟩ := resolved
    obtain ⟨k, flag, hcode⟩ := exists_parseFlag_iff.mp ⟨condition, hcondition, rfl⟩
    rw [← hcode]
    exact ⟨_, .branchFlag flag (Scope.holds_of_nibble haddress hy)⟩
  case h_9 =>
    simp only [Option.some.injEq, bind_eq_ok, Except.ok.injEq] at parsed
    obtain ⟨target, htarget, rfl⟩ := parsed
    simp only [Fields.nibbles, bind_eq_ok, Except.ok.injEq, Prod.mk.injEq] at resolved
    obtain ⟨x, hx, rfl, rfl, rfl⟩ := resolved
    exact ⟨_, .register (Scope.holds_of_nibble htarget hx)⟩
  case h_10 => cases parsed

/-- A shift with operands in range has fields. -/
theorem exists_shift {s d t u : String} {direction : Direction} {source amount destination : Int}
    (hd : Direction.parse d = .ok direction) (hs : scope.Holds 0 15 s source)
    (ht : scope.Holds 1 8 t amount) (hu : scope.Holds 0 15 u destination) :
    ∃ f, Fields.parse? .shift [s, d, t, u] = some (.ok f) ∧
      f.nibbles scope =
        .ok (source, amount - 1 + (if direction = .right then 8 else 0), destination) := by
  have hword : scope.Holds 0 (Width.word.limit - 1) t amount :=
    ⟨ht.denotes, by have := ht.least_le; omega, ht.le_greatest.trans (by decide)⟩
  have hcheck : checkShiftAmount amount = .ok amount :=
    checkShiftAmount_eq_ok_iff.mpr ⟨rfl, ht.least_le, ht.le_greatest⟩
  obtain ⟨x, hx, hsource⟩ := hs.exists_nibble
  obtain ⟨y, hy, hamount⟩ := hword.exists_operand (w := .word) rfl
  obtain ⟨z, hz, hdestination⟩ := hu.exists_nibble
  refine ⟨.shift x direction y z, ?_, ?_⟩
  · cases y with
    | literal value w =>
      cases hamount
      have hdiscard : discard (checkShiftAmount amount) = .ok () := hcheck ▸ rfl
      simp only [Fields.parse?, hd, hx, hy, hz, hdiscard, bind, Except.bind]
    | symbol name w => simp only [Fields.parse?, hd, hx, hy, hz, bind, Except.bind]
  · simp only [Fields.nibbles, hsource, hamount, hdestination, hcheck, bind, Except.bind]

/-- **The fields of a row of the table are made of operands in its form.** -/
theorem Form.Tabulates.exists_fields {arguments : List Argument}
    (h : form.Tabulates scope operands arguments a b c) :
    ∃ f, Fields.parse? form operands = some (.ok f) ∧ f.nibbles scope = .ok (a, b, c) := by
  cases h with
  | plain => exact ⟨_, rfl, rfl⟩
  | byteRegister hs ht =>
    obtain ⟨byte, hbyte, hx⟩ := hs.exists_operand (w := .byte) rfl
    obtain ⟨target, htarget, hy⟩ := ht.exists_nibble
    refine ⟨.byteRegister byte target, ?_, ?_⟩
    · simp only [Fields.parse?, hbyte, htarget, bind, Except.bind]
    · simp only [Fields.nibbles, hx, hy, bind, Except.bind, splitNibbles]
  | sourceDestination hs ht =>
    obtain ⟨source, hsource, hx⟩ := hs.exists_nibble
    obtain ⟨dest, hdest, hy⟩ := ht.exists_nibble
    refine ⟨.sourceDestination source dest, ?_, ?_⟩
    · simp only [Fields.parse?, hsource, hdest, bind, Except.bind]
    · simp only [Fields.nibbles, hx, hy, bind, Except.bind]
  | addressRegister hs ht =>
    obtain ⟨address, haddress, hx⟩ := hs.exists_nibble
    obtain ⟨stored, hstored, hy⟩ := ht.exists_nibble
    refine ⟨.addressRegister address stored, ?_, ?_⟩
    · simp only [Fields.parse?, haddress, hstored, bind, Except.bind]
    · simp only [Fields.nibbles, hx, hy, bind, Except.bind]
  | threeFields hs ht hu =>
    obtain ⟨first, hfirst, hx⟩ := hs.exists_nibble
    obtain ⟨second, hsecond, hy⟩ := ht.exists_nibble
    obtain ⟨third, hthird, hz⟩ := hu.exists_nibble
    refine ⟨.threeFields first second third, ?_, ?_⟩
    · simp only [Fields.parse?, hfirst, hsecond, hthird, bind, Except.bind]
    · simp only [Fields.nibbles, hx, hy, hz, bind, Except.bind]
  | shiftLeft hs ht hu =>
    have hd : Direction.parse "L" = .ok .left := rfl
    simpa using exists_shift hd hs ht hu
  | shiftRight hs ht hu =>
    have hd : Direction.parse "R" = .ok .right := rfl
    exact exists_shift hd hs ht hu
  | branchValue hs nonempty letters hu =>
    obtain ⟨value, hvalue, hx⟩ := hs.exists_nibble
    obtain ⟨address, haddress, hy⟩ := hu.exists_nibble
    obtain ⟨condition, hcondition, hcode⟩ := exists_parseValue_iff.mpr ⟨nonempty, letters, rfl⟩
    refine ⟨.branch condition value address, ?_, ?_⟩
    · simp only [Fields.parse?, hcondition, hvalue, haddress, bind, Except.bind]
    · simp only [Fields.nibbles, hx, hy, hcode, bind, Except.bind]
  | branchFlag flag ht =>
    obtain ⟨address, haddress, hy⟩ := ht.exists_nibble
    obtain ⟨condition, hcondition, hcode⟩ := exists_parseFlag_iff.mpr ⟨_, flag, rfl⟩
    have hzero : (Operand.literal 0 .nibble).resolve scope = .ok 0 := rfl
    refine ⟨.branch condition (.literal 0 .nibble) address, ?_, ?_⟩
    · simp only [Fields.parse?, hcondition, haddress, bind, Except.bind]
    · simp only [Fields.nibbles, hzero, hy, hcode, bind, Except.bind]
  | register hs =>
    obtain ⟨target, htarget, hx⟩ := hs.exists_nibble
    refine ⟨.register target, ?_, ?_⟩
    · simp only [Fields.parse?, htarget, bind, Except.bind]
    · simp only [Fields.nibbles, hx, bind, Except.bind]

/-- The fields of a row are nibbles. -/
theorem Form.Tabulates.isNibble {arguments : List Argument}
    (h : form.Tabulates scope operands arguments a b c) : IsNibble a ∧ IsNibble b ∧ IsNibble c := by
  have hzero : IsNibble 0 := by decide
  cases h with
  | plain => exact ⟨hzero, hzero, hzero⟩
  | byteRegister hs ht =>
    have hsplit := isNibble_splitNibbles _ ⟨hs.least_le, Int.lt_add_one_of_le hs.le_greatest⟩
    exact ⟨hsplit.1, hsplit.2, ht.isNibble⟩
  | sourceDestination hs ht => exact ⟨hs.isNibble, hzero, ht.isNibble⟩
  | addressRegister hs ht => exact ⟨hs.isNibble, ht.isNibble, hzero⟩
  | threeFields hs ht hu => exact ⟨hs.isNibble, ht.isNibble, hu.isNibble⟩
  | shiftLeft hs ht hu | shiftRight hs ht hu =>
    refine ⟨hs.isNibble, ?_, hu.isNibble⟩
    have hlo := ht.least_le
    have hhi := ht.le_greatest
    exact ⟨by omega, by omega⟩
  | branchValue hs nonempty letters hu =>
    obtain ⟨condition, -, hcode⟩ := exists_parseValue_iff.mpr ⟨nonempty, letters, rfl⟩
    exact ⟨hs.isNibble, hu.isNibble, hcode ▸ isNibble_condition condition⟩
  | branchFlag flag ht =>
    obtain ⟨condition, -, hcode⟩ := exists_parseFlag_iff.mpr ⟨_, flag, rfl⟩
    exact ⟨hzero, ht.isNibble, hcode ▸ isNibble_condition condition⟩
  | register hs => exact ⟨hzero, hzero, hs.isNibble⟩

end Forms

/-! ## Instructions -/

/-- An entry that is found by its own name is found by no other. -/
theorem find?_eq_some_iff_name {α : Type} {all : List α} {name : α → String} {a : α} {text : String}
    (h : (all.find? fun b => name b = name a) = some a) :
    (all.find? fun b => name b = text) = some a ↔ text = name a := by
  constructor
  · intro hfind
    have hname : name a = text := by simpa using List.find?_some hfind
    exact hname.symm
  · rintro rfl
    exact h

theorem Mnemonic.ofName?_eq_some_iff {word : String} {m : Mnemonic} :
    Mnemonic.ofName? word = some m ↔ Text.upper word = m.name :=
  find?_eq_some_iff_name (by cases m <;> decide)

theorem Mnemonic.upper_name (m : Mnemonic) : Text.upper m.name = m.name := by
  cases m <;> decide +kernel

theorem mem_instructionSet_iff {entry : InstructionEntry} :
    entry ∈ instructionSet ↔ ∃ m : Mnemonic, entry = ⟨m.name, m.opcode, m.form⟩ := by
  have hset : instructionSet = Mnemonic.all.map fun m => ⟨m.name, m.opcode, m.form⟩ := rfl
  have hall : ∀ m : Mnemonic, m ∈ Mnemonic.all := by
    intro m
    cases m <;> decide
  simp [hset, hall, eq_comm]

namespace Instruction

variable {scope : Scope} {word args : String} {w : Int}

theorem ofMnemonic_eq_ok_iff {m : Mnemonic} {i : Instruction} :
    ofMnemonic m args = .ok i ↔
      ∃ f, Fields.parse? m.form (Text.words args) = some (.ok f) ∧ i = ⟨m, f, Text.words args⟩ := by
  unfold ofMnemonic
  dsimp only
  cases Fields.parse? m.form (Text.words args) with
  | none => simp [failCount, fail_ne_ok]
  | some x => cases x <;> simp [Except.map, eq_comm]

/-- **The word of an instruction is that of a row of the table with its name.** -/
theorem encode_eq_ok_iff :
    encode scope word args = .ok w ↔
      ∃ entry ∈ instructionSet, Text.upper word = entry.name ∧ ∃ arguments a b c,
        entry.form.Tabulates scope (Text.words args) arguments a b c ∧
        w = entry.opcode * 0x1000 + a * 0x100 + b * 0x10 + c := by
  constructor
  · intro h
    obtain ⟨i, parsed, resolved⟩ := bind_eq_ok.mp h
    -- the line is read as fields, whose values are nibbles and make the word
    unfold parse at parsed
    split at parsed
    · next m hm =>
      obtain ⟨f, hf, rfl⟩ := ofMnemonic_eq_ok_iff.mp parsed
      obtain ⟨⟨a, b, c⟩, hnibbles, packed⟩ := bind_eq_ok.mp resolved
      obtain ⟨arguments, row⟩ := exists_tabulates hf hnibbles
      obtain ⟨ha, hb, hc⟩ := row.isNibble
      refine ⟨_, mem_instructionSet_iff.mpr ⟨m, rfl⟩, Mnemonic.ofName?_eq_some_iff.mp hm,
        arguments, a, b, c, row, ?_⟩
      exact Except.ok.inj (packed.symm.trans (packWord_of_isNibble (isNibble_opcode m) ha hb hc))
    · cases parsed
  · rintro ⟨entry, hentry, hname, arguments, a, b, c, row, rfl⟩
    obtain ⟨m, rfl⟩ := mem_instructionSet_iff.mp hentry
    obtain ⟨f, hf, hnibbles⟩ := row.exists_fields
    obtain ⟨ha, hb, hc⟩ := row.isNibble
    refine bind_eq_ok.mpr ⟨⟨m, f, Text.words args⟩, ?_, ?_⟩
    · unfold parse
      rw [Mnemonic.ofName?_eq_some_iff.mpr hname]
      exact ofMnemonic_eq_ok_iff.mpr ⟨f, hf, rfl⟩
    · exact bind_eq_ok.mpr ⟨(a, b, c), hnibbles, packWord_of_isNibble (isNibble_opcode m) ha hb hc⟩

end Instruction

/-! ## Errors of the source -/

/-- A failure that is an error of the source and not a fault outside it. -/
def Failure.IsReport (f : Failure) : Prop :=
  ∃ d, f = .error d

theorem reports_isReport : Reports Failure.IsReport :=
  fun cause _ _ => ⟨.ofCause cause, rfl⟩

/-- A scope in which each name has a value or is reported as undefined. -/
def Scope.IsMapping (scope : Scope) : Prop :=
  ∀ name, (∃ v, scope name = .ok v) ∨ ∃ similar, scope name = fail (.undefinedSymbol name similar)

theorem Bindings.isMapping_scope (b : Bindings Int) : Scope.IsMapping b.scope := by
  intro name
  unfold Bindings.scope
  cases b.get? name with
  | none => exact .inr ⟨[], rfl⟩
  | some v => exact .inl ⟨v, rfl⟩

/-- Names are mapped to values by the symbols of an assembly. -/
theorem SymbolTable.isMapping_lookup (t : SymbolTable) : Scope.IsMapping t.lookup := by
  intro name
  unfold SymbolTable.lookup
  cases t.get? name with
  | none => exact .inr ⟨_, rfl⟩
  | some symbol => exact .inl ⟨_, rfl⟩

section Reports

variable {scope : Scope} {w : Width} {s : String} {o : Operand}

theorem ends_check (hw : w.isSupported = true) (value : Int) (shown : String) :
    Ends Failure.IsReport (fun v => 0 ≤ v ∧ v < w.limit) (w.check value shown) := by
  rw [Width.check_of_isSupported hw]
  split_ifs with hneg hlt
  · exact reports_isReport.fail rfl rfl
  · exact .ok ⟨Int.not_lt.mp hneg, hlt⟩
  · exact reports_isReport.fail rfl rfl

/-- A literal that is not too long is read, or is an error of the source. -/
theorem ends_parse_of_short (hw : w.isSupported = true)
    (short : isLiteral s = true → ∀ n : Numeral, n.Writes s → ¬n.IsOverlong) :
    Ends Failure.IsReport (Operand.Fits w) (Operand.parse w s) := by
  unfold Operand.parse
  split
  · next starts =>
    refine Ends.map ?_ fun v (hv : 0 ≤ v ∧ v < w.limit) => .literal hv.1 hv.2
    by_cases h : ∃ n : Numeral, n.Writes s
    · obtain ⟨n, hn⟩ := h
      rw [Literal.parse_of_writes hw hn, if_neg (short starts n hn)]
      exact ends_check hw n.value s
    · rw [Literal.parse_of_not_writes hw h]
      exact reports_isReport.fail rfl rfl
  · exact .ok (.symbol s)

theorem ends_resolve_of_isMapping (hscope : scope.IsMapping) (hw : w.isSupported = true)
    (ho : o.Fits w) :
    Ends Failure.IsReport (fun v => 0 ≤ v ∧ v < w.limit) (o.resolve scope) := by
  cases ho with
  | literal hlo hhi => exact .ok ⟨hlo, hhi⟩
  | symbol name =>
    unfold Operand.resolve
    dsimp only
    rcases hscope name with ⟨v, hv⟩ | ⟨similar, hv⟩
    · rw [hv]
      exact ends_check hw v name
    · rw [hv]
      exact reports_isReport.fail rfl rfl

end Reports

namespace Instruction

variable {scope : Scope} {word args : String}

/-- An instruction has a word, or an error of the source. -/
theorem ends_encode (hscope : scope.IsMapping)
    (short : ∀ s ∈ Text.words args, isLiteral s = true → ∀ n : Numeral, n.Writes s →
      ¬n.IsOverlong) : Ends Failure.IsReport IsWord (encode scope word args) := by
  have hparse : Ends Failure.IsReport (fun i : Instruction => i.fields.Fits) (parse word args) := by
    unfold parse
    split
    · exact ends_ofMnemonic reports_isReport _ _
        fun s hs w hw => ends_parse_of_short hw (short s hs)
    · exact reports_isReport.fail rfl rfl
  unfold encode
  exact hparse.bind fun i hi => ends_word reports_isReport (ends_resolve_of_isMapping hscope) hi

/-- **An instruction is encoded as the table of the instruction set says.** It has a word if and
only if its name in upper case is in the table and its operands make a row of the form: the word has
the opcode and the fields of the row. Where names are mapped to values or undefined, and no decimal
literal has more than 4300 digits, everything else is an error of the source. -/
theorem encode_tabulated (scope : Scope) (word args : String) :
    (∀ w, encode scope word args = .ok w ↔
      ∃ entry ∈ instructionSet, Text.upper word = entry.name ∧ ∃ arguments a b c,
        entry.form.Tabulates scope (Text.words args) arguments a b c ∧
        w = entry.opcode * 0x1000 + a * 0x100 + b * 0x10 + c) ∧
    (scope.IsMapping →
      (∀ s ∈ Text.words args, isLiteral s = true → ∀ n : Numeral, n.Writes s → ¬n.IsOverlong) →
      (¬∃ w, encode scope word args = .ok w) →
      ∃ d, encode scope word args = .error (.error d)) := by
  refine ⟨fun w => encode_eq_ok_iff, fun hscope short hnone => ?_⟩
  cases hencode : encode scope word args with
  | ok w => exact absurd ⟨w, hencode⟩ hnone
  | error f =>
    obtain ⟨d, rfl⟩ := (ends_encode hscope short).of_error hencode
    exact ⟨d, rfl⟩

/-- A branch with a repeated letter in a row of the table, and a shift by too much in none. -/
theorem encode_tabulated_branch :
    let scope := Bindings.scope (.ofList [("RA", 10), ("k", 9)])
    scope.IsMapping ∧ encode scope "brn" "RA ZPZ $_5" = .ok 0xEA53 ∧
      (∀ s ∈ Text.words "1 L k 2", isLiteral s = true → ∀ n : Numeral, n.Writes s →
        ¬n.IsOverlong) ∧
      ∃ d, encode scope "SHF" "1 L k 2" = .error (.error d) := by
  intro scope
  have hmapping : scope.IsMapping := Bindings.isMapping_scope _
  have hregister : scope.Holds 0 15 "RA" 10 :=
    ⟨.symbol (by decide +kernel) (by decide +kernel), by decide, by decide⟩
  have htext : "$_5".toList = ['$', '_', '5'] := by decide +kernel
  have hwrites : Numeral.Writes ⟨16, false, [5]⟩ "$_5" :=
    .hexadecimal htext (.bare (.underscore (.digit (by decide) .nil)) (by decide))
  have hfive : scope.Holds 0 15 "$_5" 5 :=
    ⟨.literal (by decide +kernel) hwrites (by decide), by decide, by decide⟩
  have hletters : "ZPZ".toList = ['Z', 'P', 'Z'] := by decide +kernel
  have hrow : Form.branch.Tabulates scope ["RA", "ZPZ", "$_5"] _ 10 5 _ :=
    .branchValue hregister (by simp [hletters]) (by simp [hletters]) hfive
  have hwords : Text.words "RA ZPZ $_5" = ["RA", "ZPZ", "$_5"] := by decide +kernel
  have hshort : ∀ s ∈ Text.words "1 L k 2", s.toList.length ≤ 4300 := by decide +kernel
  have hshort' : ∀ s ∈ Text.words "1 L k 2", isLiteral s = true → ∀ n : Numeral, n.Writes s →
      ¬n.IsOverlong :=
    fun s hs _ n hn hlong => absurd (hn.length_le.trans (hshort s hs)) (Nat.not_le.mpr hlong.2)
  have hnone : (encode scope "SHF" "1 L k 2").toOption = none := by decide +kernel
  refine ⟨hmapping, ((encode_tabulated scope "brn" _).1 _).mpr ?_, hshort', ?_⟩
  · rw [hwords]
    exact ⟨⟨"BRN", 0xE, .branch⟩, by decide, by decide +kernel, _, _, _, _, hrow, by decide +kernel⟩
  · refine (encode_tabulated scope "SHF" _).2 hmapping hshort' ?_
    rintro ⟨w, hw⟩
    rw [hw] at hnone
    cases hnone

end Instruction

end NibbleAsm
