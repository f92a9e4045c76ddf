import NibbleAsm.Proofs.Inclusion
import NibbleAsm.Proofs.Meaning
import NibbleAsm.Proofs.Numeral

/-!
# Given definitions are leading constants

A value that is given to the assembler is bound before the first line, and a value on a line `.set`
is read from its digits, resolved and then bound. Both come to the same: a number is read back from
its decimal digits, and a line that defines a constant has no other effect than a command without
words. So the definitions of an assembler can be written out as lines in front of the source.

## Main definitions

* `constantText`: the line that binds a name to a value
* `Program.Prefaced`: programs that are equal but for places and leading rows without words

## Main results

* `Numeral.writes_decimal`: a word in decimal digits is a numeral with this value
* `step_constant`, `exists_trace_constants`: the effect of lines that define constants
* `assemble_constants`: an assembly does not tell its definitions from leading constants
-/

namespace NibbleAsm

open Layout

/-! ## Decimal digits -/

/-- A decimal digit is not blank, is a digit of some script, and has a value. -/
theorem digit_facts {c : Char} (h : c.isDigit = true) :
    Text.isBlank c = false ∧ Text.isDigit c = true ∧ IsDigit 10 c (c.toNat - '0'.toNat) := by
  have hall : ∀ d < 10, Text.isBlank (.ofNat (d + 48)) = false ∧
      Text.isDigit (.ofNat (d + 48)) = true ∧
      IsDigit 10 (.ofNat (d + 48)) ((Char.ofNat (d + 48)).toNat - '0'.toNat) := by
    decide +kernel
  obtain ⟨hlo, hhi⟩ := Char.isDigit_iff_toNat.mp h
  change 48 ≤ c.toNat at hlo
  change c.toNat ≤ 57 at hhi
  obtain ⟨d, hd, rfl⟩ : ∃ d < 10, c = Char.ofNat (d + 48) :=
    ⟨c.toNat - 48, by omega, by rw [Nat.sub_add_cancel hlo, Char.ofNat_toNat]⟩
  exact hall d hd

theorem Numeral.spells_of_digits {cs : List Char} (h : ∀ c ∈ cs, c.isDigit = true) :
    Spells 10 cs (cs.map fun c => c.toNat - '0'.toNat) := by
  induction cs with
  | nil => exact .nil
  | cons c cs ih =>
    obtain ⟨hc, hcs⟩ := List.forall_mem_cons.mp h
    exact .digit (digit_facts hc).2.2 (ih hcs)

theorem Radix.value_of_digits (cs : List Char) :
    Radix.decimal.value (cs.map fun c => c.toNat - '0'.toNat) = Nat.ofDigitChars 10 cs 0 := by
  rw [Radix.value, List.foldl_map, Nat.ofDigitChars_eq_foldl]
  simp only [Radix.base, Nat.mul_comm]

section Decimal

variable {value : Int}

theorem toList_decimal (h : 0 ≤ value) :
    (Text.decimal value).toList = Nat.toDigits 10 value.toNat := by
  obtain ⟨n, rfl⟩ := Int.eq_ofNat_of_zero_le h
  exact Nat.toList_repr

theorem isDigit_of_mem_decimal (h : 0 ≤ value) {c : Char} (hc : c ∈ (Text.decimal value).toList) :
    c.isDigit = true := by
  rw [toList_decimal h] at hc
  exact Nat.isDigit_of_mem_toDigits (by decide) (by decide) hc

theorem decimal_ne_nil (h : 0 ≤ value) : (Text.decimal value).toList ≠ [] := by
  rw [toList_decimal h]
  exact Nat.toDigits_ne_nil

theorem isPlain_decimal (h : 0 ≤ value) : IsPlain (Text.decimal value) where
  nonempty := decimal_ne_nil h
  solid c hc := (digit_facts (isDigit_of_mem_decimal h hc)).1
  visible hc := absurd (isDigit_of_mem_decimal h hc) (by decide)

theorem isLiteral_decimal (h : 0 ≤ value) : isLiteral (Text.decimal value) = true := by
  obtain ⟨c, cs, hcs⟩ := List.exists_cons_of_ne_nil (decimal_ne_nil h)
  have hc := isDigit_of_mem_decimal h (hcs ▸ List.mem_cons_self)
  simp [isLiteral, hcs, (digit_facts hc).2.1]

/-- **A word in decimal digits is a numeral with this value.** -/
theorem Numeral.writes_decimal (h : IsWord value) :
    ∃ n : Numeral, n.Writes (Text.decimal value) ∧ ¬n.IsOverlong ∧ n.value = value := by
  have hspells := spells_of_digits fun c => isDigit_of_mem_decimal (c := c) h.1
  have hlength : (Text.decimal value).toList.length ≤ 5 := by
    rw [toList_decimal h.1, Nat.length_toDigits_le_iff (by decide) (by decide)]
    have := h.2
    omega
  refine ⟨⟨10, false, _⟩, .decimal (.bare hspells ?_), ?_, ?_⟩
  · simpa using decimal_ne_nil h.1
  · rintro ⟨-, hlong⟩
    rw [List.length_map] at hlong
    omega
  · have hvalue : Radix.decimal.value
        ((Text.decimal value).toList.map fun c => c.toNat - '0'.toNat) = value.toNat := by
      rw [Radix.value_of_digits, toList_decimal h.1, Nat.ofDigitChars_ten_toDigits]
    rw [Radix.value_eq] at hvalue
    rw [Numeral.value, if_neg Bool.false_ne_true]
    exact (congrArg Nat.cast hvalue).trans (Int.toNat_of_nonneg h.1)

/-- A word is read back from its decimal digits. -/
theorem Operand.parse_decimal (h : IsWord value) :
    Operand.parse .word (Text.decimal value) = .ok (.literal value .word) := by
  obtain ⟨n, writes, short, hvalue⟩ := Numeral.writes_decimal h
  rw [Operand.parse, isLiteral_decimal h.1, if_pos rfl,
    (Literal.parse_eq_ok_iff (w := .word) rfl).mpr ⟨n, writes, short, hvalue, h.1, h.2⟩]
  rfl

end Decimal

/-! ## Lines that define constants -/

/-- The line that binds a name to a value. -/
def constantText (pair : String × Int) : String :=
  ".set" ++ " " ++ (pair.1 ++ " " ++ Text.decimal pair.2)

/-- A pair that a line can define: a plain name that is neither a literal nor in parentheses, and a
word. -/
structure IsConstant (pair : String × Int) : Prop where
  plain : IsPlain pair.1
  free : isLiteral pair.1 = false
  bare : Text.startsWith '(' pair.1 = false
  word : IsWord pair.2

instance : DecidablePred IsConstant := fun pair =>
  decidable_of_iff (IsPlain pair.1 ∧ isLiteral pair.1 = false ∧
      Text.startsWith '(' pair.1 = false ∧ IsWord pair.2)
    ⟨fun ⟨plain, free, bare, word⟩ => ⟨plain, free, bare, word⟩,
      fun h => ⟨h.plain, h.free, h.bare, h.word⟩⟩

section Constants

variable {pair : String × Int} {l : SourceLine}

theorem isPlain_set : IsPlain ".set" := by
  decide +kernel

theorem IsConstant.isTidy (h : IsConstant pair) : IsTidy (pair.1 ++ " " ++ Text.decimal pair.2) :=
  h.plain.isTidy_append (isPlain_decimal h.word.1).isTidy

/-- A tidy text does not end in a line break. -/
theorem chomp_of_isTidy {text : String} (h : IsTidy text) : Text.chomp text = text := by
  have hbreak : ∀ c ∈ text.toList.getLast?, decide (c = '\r' ∨ c = '\n') = false := by
    intro c hc
    refine decide_eq_false ?_
    rintro (rfl | rfl) <;> exact absurd (h.last _ hc) (by decide +kernel)
  rw [Text.chomp, Text.dropTail_eq_self hbreak, String.ofList_toList]

theorem IsConstant.operands (h : IsConstant pair) (text : l.text = constantText pair) :
    l.keyword = ".set" ∧ twoOperands ".set" l.operandText = .ok (pair.1, Text.decimal pair.2) := by
  obtain ⟨hkeyword, hoperands⟩ := SourceLine.operands_of_text isPlain_set h.isTidy text
  refine ⟨hkeyword, ?_⟩
  rw [hoperands, twoOperands, Text.words_append h.plain,
    Text.words_of_plain (isPlain_decimal h.word.1)]

/-- A line that defines a constant binds its name and places a command without words. -/
theorem step_constant (search : Search) {s : State} (h : IsConstant pair)
    (text : l.text = constantText pair) (within : s.index ≤ addressSpace) :
    ∃ t, step search l s = .ok t ∧ t.cursor = s.cursor ∧
      t.symbols.values = s.symbols.values.insert pair.1 pair.2 ∧ t.index = s.index ∧
      t.placed = s.placed.push (.ofLine l .nothing s.index) := by
  obtain ⟨hkeyword, hsplit⟩ := h.operands text
  have hdefine : s.define pair.1 pair.2 l.location = .ok (s.bound pair.1 pair.2 l.location) :=
    State.define_of_ok (SymbolTable.checkValue_of_isWord pair.1 h.word)
  have directed : Directed search l l.operandText s .set .nothing _ :=
    .set hsplit h.free h.bare (Operand.parse_decimal h.word) rfl hdefine
  obtain ⟨log', hstep⟩ := directed.exists_step (by rw [hkeyword]; decide +kernel) within
  exact ⟨_, hstep, rfl, SymbolTable.values_insert .., rfl, rfl⟩

/-- **Lines that define constants bind their names one after the other**, and place commands without
words. -/
theorem exists_trace_constants (search : Search) {pairs : List (String × Int)} {s : State}
    {rest : List SourceLine} (h : ∀ pair ∈ pairs, IsConstant pair) (file : String)
    (chain : List String) (n : Nat)
    (pending : s.cursor.pending = numberedFrom file chain n (pairs.map constantText) ++ rest)
    (within : s.index ≤ addressSpace) :
    ∃ visits t, Trace search s visits t ∧ t.cursor.pending = rest ∧
      t.symbols.values = s.symbols.values.insertAll pairs ∧ t.index = s.index ∧
      t.placed.toList = s.placed.toList ++
        (numberedFrom file chain n (pairs.map constantText)).map (.ofLine · .nothing s.index) := by
  induction pairs generalizing s n with
  | nil => exact ⟨[], s, .nil s, pending, rfl, rfl, (List.append_nil _).symm⟩
  | cons pair pairs ih =>
    obtain ⟨hpair, hpairs⟩ := List.forall_mem_cons.mp h
    rw [List.map_cons, numberedFrom_cons] at pending ⊢
    have hnext := State.next?_of_pending pending
    have htext := chomp_of_isTidy (isPlain_set.isTidy_append hpair.isTidy)
    obtain ⟨mid, hstep, hcursor, hvalues, hindex, hplaced⟩ := step_constant search
      (s := { s with cursor := ⟨_, s.cursor.taken + 1⟩ })
      (l := ⟨file, n + 1, Text.chomp (constantText pair), chain⟩) hpair htext within
    obtain ⟨visits, t, trace, hrest, hvalues', hindex', hplaced'⟩ :=
      ih (s := mid) hpairs (n + 1) (by rw [hcursor]) (by rw [hindex]; exact within)
    refine ⟨_, t, .cons hnext hstep trace, hrest, ?_, hindex'.trans hindex, ?_⟩
    · rw [hvalues', hvalues, Bindings.insertAll_cons]
    · rw [hplaced', hplaced, hindex]
      simp

/-- **A source with leading constants and the source from a table with their values have runs that
correspond.** -/
theorem run_constants (search : Search) {pairs : List (String × Int)} {table symbols : SymbolTable}
    (h : ∀ pair ∈ pairs, IsConstant pair) (bound : symbols.values = table.values.insertAll pairs)
    (file : String) (texts : List String) :
    Option.Rel (OutcomeRel Halt.Alike (State.Alike [] []
        ((numberedFrom file [file] 0 (pairs.map constantText)).map (.ofLine · .nothing 0))))
      ((State.start ⟨numberedFrom file [file] 0 texts, 0⟩ symbols).run search)
      ((State.start ⟨numberedFrom file [file] 0 (pairs.map constantText ++ texts), 0⟩ table).run
        search) := by
  obtain ⟨visits, t, trace, hrest, hvalues, hindex, hplaced⟩ :=
    exists_trace_constants search
      (s := .start ⟨numberedFrom file [file] 0 (pairs.map constantText ++ texts), 0⟩ table) h file
      [file] 0 (numberedFrom_append file [file] 0 _ texts) (Nat.zero_le _)
  -- behind the leading lines the table has the given values, and the lines left are alike
  have hlines : LinesAlike [] (numberedFrom file [file] 0 texts ++ [])
      (t.cursor.pending ++ []) := by
    rw [hrest]
    exact linesAlike_numberedFrom .nil (fun text _ i j => ⟨rfl, .inl ⟨rfl, rfl⟩⟩) _ _
  rw [List.append_nil, List.append_nil] at hlines
  rw [trace.run_eq]
  exact run_rel lockstep_alike
    ⟨hlines, bound.trans hvalues.symm, hindex.symm, [], [], rfl,
      hplaced.trans (List.append_nil _).symm, .nil⟩

end Constants

/-! ## Programs with leading constants -/

/-- The second program has the words and the symbols of the first. It has a row without words for
each of some lines, and behind them the rows of the first but for their places. -/
structure Program.Prefaced (lines : List SourceLine) (p q : Program) : Prop where
  words : p.words = q.words
  symbols : p.symbols = q.symbols
  rows : ∃ rest, q.rows = lines.map (fun l => ⟨0, [], l.location, l.content⟩) ++ rest ∧
    List.Forall₂ Row.Alike p.rows rest

theorem mapM_row_nothing (scope : Scope) (lines : List SourceLine) (n : Nat) :
    (lines.map (Placed.ofLine · .nothing n)).mapM (Placed.row scope) =
      .ok (lines.map fun l => ⟨n, [], l.location, l.content⟩) := by
  induction lines with
  | nil => rfl
  | cons l lines ih =>
    rw [List.map_cons, List.mapM_cons, Placed.row_nothing, ih]
    rfl

/-- Commands behind some without words make the same program as those that they are alike. -/
theorem follows_prefaced {excused : Prop} {lines : List SourceLine} {qs rs : List Placed}
    {t u : SymbolTable} (htable : t.values = u.values) (h : List.Forall₂ Placed.Alike qs rs) :
    Follows excused Failure.Alike (Program.Prefaced lines) (Program.ofLayout ⟨qs, t⟩).result
      (Program.ofLayout ⟨lines.map (.ofLine · .nothing 0) ++ rs, u⟩).result := by
  simp only [Program.ofLayout, Traced.bind_result, Traced.ofExcept_result, Traced.notes_result,
    Traced.pure_result, List.mapM_append, mapM_row_nothing, bind_assoc, pure_bind]
  rw [← SymbolTable.lookup_congr htable]
  refine (Follows.mapM h fun q r h => follows_row h _).bind fun rows rows' hrows => ?_
  refine .ok ⟨?_, htable, rows', rfl, hrows⟩
  simp [List.flatMap_append, flatMap_words_congr hrows]

namespace Assembler

variable {a : Assembler} {fs : FileSystem} {src : Source} {file : String} {texts : List String}

/-- **Given definitions are leading constants.** Let the definitions of an assembler be such that a
line can define them. Then a source is assembled like the source with these lines in front and no
definitions: both succeed, with the same words, the same symbols in the same order and the same rows
but for their places, and a row without words for each of the lines; or both fail, with the same
cause and hint. -/
theorem assemble_constants (read : src.read fs = .ok (file, texts))
    (constants : ∀ pair ∈ a.defines.toList, IsConstant pair) :
    OutcomeRel Failure.Alike
      (Program.Prefaced (numberedFrom file [file] 0 (a.defines.toList.map constantText)))
      (a.assemble fs src).result
      (assemble { a with defines := .empty } fs
        (.lines file (a.defines.toList.map constantText ++ texts))).result := by
  obtain ⟨symbols, defined⟩ := exists_defineAll .predefined fun pair h => (constants pair h).word
  have hvalues := ((proper_defineAll _ _).of_ok defined).1
  have hrun := run_constants ⟨fs, a.directories⟩ constants hvalues file texts
  rw [assemble_result, assemble_result, read]
  change OutcomeRel _ _ (a.assembleLines fs file texts).result
    (assembleLines { a with defines := .empty } fs file (_ ++ texts)).result
  rw [assembleLines_result, assembleLines_result, defined, splice_empty, splice_empty]
  refine ((follows_build hrun).bind fun k k' hk => ?_).outcomeRel not_false
  obtain ⟨u, u', h, rfl, rfl⟩ := hk
  obtain ⟨qs, rs, hqs, hrs, hqr⟩ := h.placed
  rw [hqs, hrs]
  exact follows_prefaced h.values hqr

/-- Definitions of a name that is predefined and of one that a line defines again. -/
theorem assemble_constants_again :
    let texts := [".word tiles", "(k)", ".set k 300", ".word k"]
    let a := new [] (.ofList [("tiles", 0xFFFF), ("k", 0)])
    let files := FileSystem.empty []
    a.defines.toList.map constantText = [".set tiles 65535", ".set k 0"] ∧
    ∃ p q, (a.assemble files (.lines inputName texts)).result = .ok p ∧
      (assemble (new [] .empty) files
        (.lines inputName ([".set tiles 65535", ".set k 0"] ++ texts))).result = .ok q ∧
      p.words = [0xFFFF, 300] ∧
      p.Prefaced (numberedFrom inputName [inputName] 0 [".set tiles 65535", ".set k 0"]) q := by
  intro texts a files
  have hfront : a.defines.toList.map constantText = [".set tiles 65535", ".set k 0"] := by
    decide +kernel
  have hprogram : (a.assembleFor files 5 inputName texts).map Program.words =
      some [0xFFFF, 300] := by decide +kernel
  obtain ⟨p, hp, hwords⟩ := Option.map_eq_some_iff.mp hprogram
  have hok := assemble_eq_ok_of_assembleFor hp
  have hrel := @assemble_constants a files (.lines inputName texts) inputName texts rfl
    (by decide +kernel)
  rw [hok, hfront] at hrel
  generalize hresult : (assemble { a with defines := .empty } files _).result = result at hrel
  cases hrel with
  | ok h => exact ⟨hfront, p, _, hok, hresult, hwords, h⟩

end Assembler

end NibbleAsm
