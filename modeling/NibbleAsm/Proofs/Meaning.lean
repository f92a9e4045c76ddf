import NibbleAsm.Proofs.Coherence
import NibbleAsm.Proofs.SymbolName

/-!
# What symbols stand for

The value of a symbol in a program is the value of its last definition, in the order in which the
lines are handled: a label stands for the number of words before it, a constant for what its value
stood for at its line. A name without a definition has the value given to the assembler, or its
predefined value. The second pass sees these last values on every line; the operands that the first
pass needs at once see the values at their own line.

## Main definitions

* `wordValue`: the value that a word denotes, given the values of names
* `Program.emittedBefore`: the number of words that a program has before a line
* `Assembler.meaning`: what a name stands for behind some lines

## Main results

* `SecondPass.index_eq`: the current address at a line is the number of words before it
* `get?_eq_meaning`: the table of symbols at a line gives the meaning of each name there
* `assemble_symbols`: the symbols of a program and the operands that refer to them
-/

namespace NibbleAsm

open Layout

/-- The value that a word denotes when names have given values: a literal has its own. -/
def wordValue (value? : String → Option Int) (word : String) : Option Int :=
  if isLiteral word then (Literal.parse .word word).toOption else value? word

/-- The number of words that the commands before a visited line have. -/
def Program.emittedBefore (p : Program) (v : Visit) : Nat :=
  ((p.rows.take v.state.placed.size).flatMap Row.words).length

/-- The row of the command that a visited line places. -/
def Program.rowAt? (p : Program) (v : Visit) : Option Row :=
  p.rows[v.state.placed.size]?

/-- What names stand for behind a visited line, if they stand for `value?` before it. -/
def Program.redefine (p : Program) (value? : String → Option Int) (v : Visit) (name : String) :
    Option Int :=
  match v.line.definition? with
  | some (.label label) => if name = label then some (p.emittedBefore v) else value? name
  | some (.constant constant word) =>
    if name = constant then wordValue value? word else value? name
  | none => value? name

namespace Assembler

/-- What names stand for before the first line: the values given to the assembler come before the
predefined values. -/
def givenValue (a : Assembler) (name : String) : Option Int :=
  (a.defines.toList.reverse.lookup name).or (predefinedNames.lookup name)

/-- What names stand for behind some visited lines. Each definition replaces those before it. -/
def meaning (a : Assembler) (p : Program) (visits : List Visit) : String → Option Int :=
  visits.foldl p.redefine a.givenValue

theorem meaning_concat (a : Assembler) (p : Program) (visits : List Visit) (v : Visit) :
    a.meaning p (visits ++ [v]) = p.redefine (a.meaning p visits) v := by
  simp only [meaning, List.foldl_append, List.foldl_cons, List.foldl_nil]

end Assembler

/-! ## Operands that are resolved -/

theorem isWord_of_get? {b : Bindings Int} {name : String} {value : Int}
    (hb : ∀ pair ∈ b.toList, IsWord pair.2) (h : b.get? name = some value) : IsWord value := by
  obtain ⟨before, after, hpairs, -⟩ := List.lookup_eq_some_iff.mp h
  exact hb (name, value) (hpairs ▸ List.mem_append_right _ List.mem_cons_self)

/-- A symbol whose value is a word is resolved to it. -/
theorem resolve_symbol {t : SymbolTable} (ht : ∀ pair ∈ t.values.toList, IsWord pair.2)
    (name : String) :
    ((Operand.symbol name .word).resolve t.lookup).toOption = t.values.get? name := by
  unfold Operand.resolve
  dsimp only
  cases hget : t.values.get? name with
  | none =>
    cases hlookup : t.lookup name with
    | error f => rfl
    | ok value => exact absurd (SymbolTable.lookup_eq_ok_iff.mp hlookup) (by simp [hget])
  | some value =>
    rw [SymbolTable.lookup_eq_ok_iff.mpr hget]
    exact congrArg Except.toOption (Width.check_of_isWord (isWord_of_get? ht hget) name)

/-- An operand that is resolved at once has the value that its word denotes. -/
theorem toOption_resolve {t : SymbolTable} (ht : ∀ pair ∈ t.values.toList, IsWord pair.2)
    (word : String) :
    (Operand.parse .word word >>= Operand.resolve t.lookup).toOption =
      wordValue t.values.get? word := by
  unfold Operand.parse wordValue
  split
  · cases Literal.parse .word word <;> rfl
  · exact resolve_symbol ht word

theorem wordValue_eq_some {t : SymbolTable} (ht : ∀ pair ∈ t.values.toList, IsWord pair.2)
    {word : String} {operand : Operand} {value : Int}
    (parsed : Operand.parse .word word = .ok operand)
    (resolved : operand.resolve t.lookup = .ok value) :
    wordValue t.values.get? word = some value := by
  rw [← toOption_resolve ht, parsed]
  exact toOption_eq_some.mpr resolved

/-! ## Rows of visited lines -/

section Rows

variable {s t : State} {p : Program}

/-- **The current address is the number of words of the commands placed so far.** -/
theorem SecondPass.index_eq (second : SecondPass s p) (sound : t.Sound)
    (behind : t.placed.toList <+: s.placed.toList) :
    t.index = ((p.rows.take t.placed.size).flatMap Row.words).length := by
  -- the rows of the commands placed so far are the first rows of the program
  have hrows := List.forall₂_take t.placed.toList.length second.rows
  rw [← List.prefix_iff_eq_take.mp behind] at hrows
  -- and their words fill the space up to the current address
  obtain ⟨-, -, hlength⟩ := sound.tiles.rows_eq hrows
  rw [Array.length_toList, Nat.zero_add] at hlength
  exact hlength.symm

/-- A command that was placed has its row. -/
theorem SecondPass.exists_row {q : Placed} (second : SecondPass s p)
    (behind : (t.placed.push q).toList <+: s.placed.toList) :
    ∃ r, p.rows[t.placed.size]? = some r ∧ q.row s.symbols.lookup = .ok r := by
  obtain ⟨rest, hrest⟩ := behind
  rw [Array.toList_push, List.append_assoc, List.singleton_append] at hrest
  have hrows := List.forall₂_drop t.placed.size second.rows
  rw [← hrest, ← Array.length_toList, List.drop_left] at hrows
  obtain ⟨r, rows, hr, -, hdrop⟩ := List.forall₂_cons_left_iff.mp hrows
  refine ⟨r, ?_, hr⟩
  have hhead := congrArg List.head? hdrop
  rwa [List.head?_drop, Array.length_toList] at hhead

/-- The row of the next command is at the current address. -/
theorem SecondPass.address_eq {r : Row} (second : SecondPass s p) (sound : s.Sound)
    (sound' : t.Sound) (behind : t.placed.toList <+: s.placed.toList)
    (hr : p.rows[t.placed.size]? = some r) : r.address = t.index := by
  obtain ⟨rest, hrest⟩ := behind
  have hrows := List.forall₂_drop t.placed.size second.rows
  rw [← hrest, ← Array.length_toList, List.drop_left, Array.length_toList,
    List.drop_eq_getElem?_toList_append, hr] at hrows
  -- the row belongs to the first command behind those of `t`, which starts where they end
  obtain ⟨q, qs, hq, -, rfl⟩ := List.forall₂_cons_right_iff.mp hrows
  obtain ⟨words, -, -, rfl⟩ := Placed.row_eq_ok_iff.mp hq
  have htiles := sound.tiles
  rw [← hrest] at htiles
  exact htiles.address_of_append sound'.tiles

end Rows

/-! ## The table at a line -/

namespace Assembler

variable {a : Assembler} {fs : FileSystem} {src : Source} {search : Search} {visits : List Visit}
  {s s₀ t : State} {p : Program} {v : Visit}

theorem values_predefined :
    SymbolTable.predefined.values = ⟨predefinedNames, nodup_predefinedNames⟩ := by
  apply Bindings.ext
  simp [SymbolTable.values, SymbolTable.predefined, Bindings.map, Function.comp_def]

/-- Before the first line a name has the value given to the assembler, or its predefined value. -/
theorem get?_defineAll {symbols : SymbolTable}
    (h : ((defineAll a.defines.toList).exec .predefined).result = .ok symbols) (name : String) :
    symbols.values.get? name = a.givenValue name := by
  rw [((proper_defineAll _ _).of_ok h).1, Bindings.get?_insertAll, values_predefined]
  rfl

/-- A line gives the name that it defines its meaning and leaves the others alone. -/
theorem get?_of_step {value? : String → Option Int} (sound : s₀.Sound) (next : s₀.next? = some v)
    (done : step search v.line v.state = .ok t) (index : s₀.index = p.emittedBefore v)
    (before : ∀ name, s₀.symbols.values.get? name = value? name) (name : String) :
    t.symbols.values.get? name = p.redefine value? v name := by
  obtain ⟨hsymbols, hindex, -⟩ := State.frame_of_next? next
  unfold Program.redefine
  rcases (handled_of_step done).binds with ⟨hnone, hs⟩ | ⟨d, value, hd, -, hvalue, -, hs⟩
  · rw [hnone, hs, hsymbols]
    exact before name
  · rw [hd, hs, hsymbols, Bindings.get?_insert, before]
    cases d with
    | label label =>
      -- a label has the current address, which is the number of words before it
      rw [State.valueOf, hindex, index] at hvalue
      rw [← hvalue]
      rfl
    | constant constant word =>
      -- a constant has what its word denotes in the table before the line
      rw [State.valueOf, hsymbols, toOption_resolve sound.values, funext before] at hvalue
      rw [← hvalue]
      rfl

/-- **The table at a line gives the meaning of each name there.** -/
theorem get?_eq_meaning (sound : s₀.Sound)
    (given : ∀ name, s₀.symbols.values.get? name = a.givenValue name) (second : SecondPass s p)
    {vs ws : List Visit} (trace : Trace search s₀ vs t) (rest : Trace search t ws s)
    (name : String) : t.symbols.values.get? name = a.meaning p vs name := by
  -- on the handled lines from the last one back, since a definition sees the table that the lines
  -- before it have left
  induction vs using List.reverseRecOn generalizing t ws name with
  | nil =>
    cases trace
    exact given name
  | append_singleton vs v ih =>
    obtain ⟨mid, t', before, next, done, after⟩ := trace.around
    cases after
    have hrest : Trace search mid (v :: ws) s := .cons next done rest
    have hmid := sound.of_trace before
    have hindex := second.index_eq hmid hrest.isPrefix_placed
    rw [← (State.frame_of_next? next).2.2] at hindex
    rw [meaning_concat]
    exact get?_of_step hmid next done hindex (ih before hrest) name

/-- What is known at a visited line: what it does, that its commands stay in place, the current
address and the table. -/
theorem FirstPass.at_visit {before after : List Visit}
    (first : FirstPass a fs src (before ++ v :: after) s) (second : SecondPass s p) :
    ∃ s₁, Handled ⟨fs, a.directories⟩ v.line v.state s₁ ∧
      s₁.placed.toList <+: s.placed.toList ∧ v.state.index = p.emittedBefore v ∧ v.state.Sound ∧
      ∀ name, v.state.symbols.values.get? name = a.meaning p before name := by
  obtain ⟨read, defined, trace⟩ := first
  obtain ⟨s₀, s₁, h₀, next, done, rest⟩ := trace.around
  have hstart := FirstPass.sound ⟨read, defined, .nil _⟩
  have hsound := FirstPass.sound ⟨read, defined, h₀⟩
  have hrest := Trace.cons next done rest
  obtain ⟨hsymbols, hindex, hplaced⟩ := State.frame_of_next? next
  refine ⟨s₁, handled_of_step done, rest.isPrefix_placed, ?_, hsound.of_next? next, fun name => ?_⟩
  · rw [Program.emittedBefore, hplaced, hindex]
    exact second.index_eq hsound hrest.isPrefix_placed
  · rw [hsymbols]
    exact get?_eq_meaning hstart (get?_defineAll defined) second h₀ hrest name

end Assembler

/-! ## Operands of directives -/

section Operands

variable {search : Search} {s s₁ : State} {v : Visit} {p : Program} {name : String}

/-- The row of a line with the name of a directive has the words of its command. -/
theorem SecondPass.exists_row_of_named {d : Directive} (second : SecondPass s p)
    (handled : Handled search v.line v.state s₁) (behind : s₁.placed.toList <+: s.placed.toList)
    (named : Directive.ofName? v.line.keyword = some d) :
    ∃ command mid r, Directed search v.line v.line.operandText v.state d command mid ∧
      p.rowAt? v = some r ∧ command.words s.symbols.lookup = .ok r.words := by
  obtain ⟨command, mid, directed, hplaced⟩ := handled.directed named
  rw [hplaced] at behind
  obtain ⟨r, hr, hrow⟩ := second.exists_row behind
  obtain ⟨words, hwords, -, rfl⟩ := Placed.row_eq_ok_iff.mp hrow
  exact ⟨command, mid, _, directed, hr, hwords⟩

/-- A name behind `.word` is stored with its last value. -/
theorem SecondPass.words_of_word (second : SecondPass s p) (sound : s.Sound)
    (handled : Handled search v.line v.state s₁) (behind : s₁.placed.toList <+: s.placed.toList)
    (keyword : v.line.keyword = ".word") (operand : Text.words v.line.operandText = [name])
    (free : isLiteral name = false) :
    ∃ r value, p.rowAt? v = some r ∧ p.symbols.get? name = some value ∧ r.words = [value] := by
  obtain ⟨command, mid, r, directed, hr, hwords⟩ :=
    second.exists_row_of_named handled behind (d := .word) (by rw [keyword]; decide +kernel)
  cases directed with
  | @word text symbol split parsed =>
    cases operand.symm.trans ((proper_oneOperand _ _).of_ok split)
    -- a name that is no literal is kept as a symbol, to be looked up by the second pass
    rw [Operand.parse, free, if_neg Bool.false_ne_true] at parsed
    cases parsed
    obtain ⟨value, rest, hvalue, hnil, hwords⟩ :=
      List.forall₂_cons_left_iff.mp (mapM_eq_ok_iff.mp hwords)
    cases hnil
    refine ⟨r, value, hr, ?_, hwords⟩
    rw [second.symbols, ← resolve_symbol sound.values]
    exact toOption_eq_some.mpr hvalue

/-- Padding extends to the value of its operand at its own line. -/
theorem SecondPass.words_of_move (second : SecondPass s p) (sound : v.state.Sound)
    (handled : Handled search v.line v.state s₁) (behind : s₁.placed.toList <+: s.placed.toList)
    (keyword : v.line.keyword = ".move") (operand : Text.words v.line.operandText = [name]) :
    ∃ r target, p.rowAt? v = some r ∧
      wordValue v.state.symbols.values.get? name = some target ∧
      (v.state.index + r.words.length : Int) = target ∧ ∀ w ∈ r.words, w = 0 := by
  obtain ⟨command, mid, r, directed, hr, hwords⟩ :=
    second.exists_row_of_named handled behind (d := .move) (by rw [keyword]; decide +kernel)
  cases directed with
  | @move text operand' target split parsed resolved ahead =>
    cases operand.symm.trans ((proper_oneOperand _ _).of_ok split)
    -- the padding is zeros only, so its words do not depend on the finished table
    have hreplicate := (Except.ok.inj hwords).symm
    refine ⟨r, target, hr, wordValue_eq_some sound.values parsed resolved, ?_, ?_⟩
    · rw [hreplicate, List.length_replicate]
      omega
    · rw [hreplicate]
      exact fun w hw => List.eq_of_mem_replicate hw

/-- An array is filled as often as its count says at its own line. -/
theorem SecondPass.words_of_fill {count : String} (second : SecondPass s p) (sound : v.state.Sound)
    (handled : Handled search v.line v.state s₁) (behind : s₁.placed.toList <+: s.placed.toList)
    (keyword : v.line.keyword = ".fill-array")
    (operands : Text.words v.line.operandText = [count, name]) :
    ∃ r number, p.rowAt? v = some r ∧
      wordValue v.state.symbols.values.get? count = some number ∧
      (r.words.length : Int) = number := by
  obtain ⟨command, mid, r, directed, hr, hwords⟩ :=
    second.exists_row_of_named handled behind (d := .fillArray) (by rw [keyword]; decide +kernel)
  cases directed with
  | @fillArray text text' counter operand number split counted resolved parsed =>
    cases operands.symm.trans ((proper_twoOperands _ _).of_ok split)
    have hvalue := wordValue_eq_some sound.values counted resolved
    have hnumber := (proper_resolve (isProper_lookup _) ((proper_parse _ _).of_ok counted)).of_ok
      resolved
    refine ⟨r, number, hr, hvalue, ?_⟩
    rw [Command.length_words hwords]
    exact Int.toNat_of_nonneg hnumber.1

end Operands

/-! ## The symbols of a program -/

/-- A line stores the value of a name: it reads `.word` and the name, up to blanks and a comment. -/
def SourceLine.StoresWord (l : SourceLine) (name : String) : Prop :=
  l.text = ".word " ++ name ∨ (l.keyword = ".word" ∧ Text.words l.operandText = [name])

/-- The symbols of a program have their meaning behind all visited lines, labels stand at the next
row inside the address space, and operands see the values that they should. -/
structure Program.Meant (a : Assembler) (visits : List Visit) (p : Program) : Prop where
  symbols : ∀ name, p.symbols.get? name = a.meaning p visits name
  label : ∀ v ∈ visits, ∀ name, v.line.definition? = some (.label name) →
    v.line.content = "(" ++ name ++ ")" ∧ p.emittedBefore v < 0x10000 ∧
      ∀ r ∈ p.rowAt? v, r.address = p.emittedBefore v
  word : ∀ w ∈ visits, ∀ d, w.line.definition? = some d → ∀ v ∈ visits, v.line.StoresWord d.name →
    ∃ r value, p.rowAt? v = some r ∧ p.symbols.get? d.name = some value ∧ r.words = [value]
  move : ∀ before v after name, visits = before ++ v :: after → v.line.keyword = ".move" →
    Text.words v.line.operandText = [name] →
    ∃ r target, p.rowAt? v = some r ∧ wordValue (a.meaning p before) name = some target ∧
      (p.emittedBefore v + r.words.length : Int) = target ∧ ∀ w ∈ r.words, w = 0
  fill : ∀ before v after count name, visits = before ++ v :: after →
    v.line.keyword = ".fill-array" → Text.words v.line.operandText = [count, name] →
    ∃ r number, p.rowAt? v = some r ∧ wordValue (a.meaning p before) count = some number ∧
      (r.words.length : Int) = number

namespace Assembler

variable {a : Assembler} {fs : FileSystem} {src : Source} {visits : List Visit} {s : State}
  {p : Program}

theorem FirstPass.get?_eq_meaning (first : FirstPass a fs src visits s) (second : SecondPass s p)
    (name : String) : p.symbols.get? name = a.meaning p visits name := by
  obtain ⟨read, defined, trace⟩ := first
  rw [second.symbols]
  exact Assembler.get?_eq_meaning (FirstPass.sound ⟨read, defined, .nil _⟩)
    (get?_defineAll defined) second trace (.nil s) name

/-- A definition on a visited line is of a word, and its name is not a literal. -/
theorem FirstPass.definition_at {v : Visit} {d : Definition} (first : FirstPass a fs src visits s)
    (second : SecondPass s p) (hv : v ∈ visits) (hd : v.line.definition? = some d) :
    isLiteral d.name = false ∧ ∃ value, v.state.valueOf d = some value ∧ IsWord value := by
  obtain ⟨before, after, rfl⟩ := List.append_of_mem hv
  obtain ⟨s₁, handled, -⟩ := first.at_visit second
  rcases handled.binds with ⟨hnone, -⟩ | ⟨d', value, hd', hfree, hvalue, hword, -⟩
  · exact absurd (hnone.symm.trans hd) (by simp)
  · cases hd'.symm.trans hd
    exact ⟨hfree, value, hvalue, hword⟩

theorem meant_of_passes (first : FirstPass a fs src visits s) (second : SecondPass s p) :
    p.Meant a visits where
  symbols := first.get?_eq_meaning second
  label v hv name hd := by
    obtain ⟨-, value, hvalue, hword⟩ := first.definition_at second hv hd
    cases hvalue
    obtain ⟨before, after, rfl⟩ := List.append_of_mem hv
    obtain ⟨s₁, handled, behind, hindex, sound, -⟩ := first.at_visit second
    rw [hindex] at hword
    refine ⟨SourceLine.content_of_label hd, Int.ofNat_lt.mp hword.2, fun r hr => ?_⟩
    rw [← hindex]
    exact second.address_eq first.sound sound (handled.isPrefix_placed.trans behind) hr
  word w hw d hd v hv hstores := by
    obtain ⟨hfree, -⟩ := first.definition_at second hw hd
    -- a name that is defined is plain, so it is read as one word in either form of the line
    have hline : v.line.keyword = ".word" ∧ Text.words v.line.operandText = [d.name] :=
      hstores.elim (SourceLine.words_of_text (SourceLine.isPlain_of_definition? hd)) id
    obtain ⟨before, after, rfl⟩ := List.append_of_mem hv
    obtain ⟨s₁, handled, behind, -⟩ := first.at_visit second
    exact second.words_of_word first.sound handled behind hline.1 hline.2 hfree
  move before v after name hvisits keyword operand := by
    subst hvisits
    obtain ⟨s₁, handled, behind, hindex, sound, hmeaning⟩ := first.at_visit second
    rw [← funext hmeaning, ← hindex]
    exact second.words_of_move sound handled behind keyword operand
  fill before v after count name hvisits keyword operands := by
    subst hvisits
    obtain ⟨s₁, handled, behind, -, sound, hmeaning⟩ := first.at_visit second
    rw [← funext hmeaning]
    exact second.words_of_fill sound handled behind keyword operands

/-- **The symbols of a program have the values of their last definitions**, and its operands refer
to them: those of the second pass see the finished table on every line, so a name that is defined
anywhere is stored with its last value, and those of the first pass see the table at their own
line. -/
theorem assemble_symbols (h : (a.assemble fs src).result = .ok p) :
    ∃ visits s, FirstPass a fs src visits s ∧ s.cursor.pending = [] ∧ p.Meant a visits ∧
      p.symbols = s.symbols.values ∧
      List.Forall₂ (fun q r => q.command.words s.symbols.lookup = .ok r.words) s.placed.toList
        p.rows := by
  obtain ⟨visits, s, first, done, second⟩ := (proper_assemble a fs src).of_ok h
  have hwords := second.forall₂_words.imp fun q r hr => hr.2
  exact ⟨visits, s, first, done, meant_of_passes first second, second.symbols, hwords⟩

/-- Names that are used before their last definition, one of them a label that becomes a
constant. -/
theorem assemble_symbols_redefined :
    let texts :=
      [".set n 2", ".fill-array n b", ".set n 5", "(b)", ".move n", ".word k", ".set b 7"]
    let a := new [] (.ofList [("k", 3)])
    let files := FileSystem.empty []
    ∃ p, (a.assemble files (.lines inputName texts)).result = .ok p ∧
      p.words = [7, 7, 0, 0, 0, 3] ∧
      ∃ visits s, FirstPass a files (.lines inputName texts) visits s ∧ s.cursor.pending = [] ∧
        p.Meant a visits ∧ p.symbols = s.symbols.values ∧
        List.Forall₂ (fun q r => q.command.words s.symbols.lookup = .ok r.words) s.placed.toList
          p.rows := by
  intro texts a files
  have hwords : (a.assembleFor files 8 inputName texts).map Program.words =
      some [7, 7, 0, 0, 0, 3] := by decide +kernel
  obtain ⟨p, hp, hwords⟩ := Option.map_eq_some_iff.mp hwords
  have hok := assemble_eq_ok_of_assembleFor hp
  exact ⟨p, hok, hwords, assemble_symbols hok⟩

end Assembler

end NibbleAsm
