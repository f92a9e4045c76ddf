import NibbleAsm.Proofs.Statement

/-!
# Definitions of symbols

Two kinds of lines define a symbol: a label binds its name to the current address, and `.set` binds
a name to what its value denotes at that line. No other line changes a value in the table.

## Main definitions

* `Definition`, `SourceLine.definition?`: the definition on a line
* `State.valueOf`: the value that a definition gives to its name in a state

## Main results

* `Handled.binds`: a line binds the name that it defines and no other
* `Handled.directed`: a line with the name of a directive does what the directive does
-/

namespace NibbleAsm

/-- A definition on a line: a label, or a name with the text of its value. -/
inductive Definition where
  | label (name : String)
  | constant (name text : String)
  deriving DecidableEq, Repr

/-- The name that is defined. -/
def Definition.name : Definition → String
  | label name | constant name _ => name

/-- The definition on a line, which is in parentheses or behind `.set`. -/
def SourceLine.definition? (l : SourceLine) : Option Definition :=
  if Text.startsWith '(' l.keyword then (Layout.labelName? l.content).map .label
  else if l.keyword = ".set" then
    match Text.words l.operandText with
    | [name, text] => some (.constant name text)
    | _ => none
  else none

theorem SourceLine.definition?_eq_none {l : SourceLine}
    (closed : Text.startsWith '(' l.keyword = false) (other : l.keyword ≠ ".set") :
    l.definition? = none := by
  simp [definition?, closed, other]

namespace Layout

variable {search : Search} {line : SourceLine} {s s' : State}

/-- The value that a definition gives to its name: a label has the current address, and a constant
has the value that its text denotes by now. -/
def State.valueOf (s : State) : Definition → Option Int
  | .label _ => some s.index
  | .constant _ text => (Operand.parse .word text >>= Operand.resolve s.symbols.lookup).toOption

/-- **A line binds the name that it defines and no other**, and to a word. -/
theorem Handled.binds (h : Handled search line s s') :
    (line.definition? = none ∧ s'.symbols = s.symbols) ∨
      ∃ d value, line.definition? = some d ∧ isLiteral d.name = false ∧
        s.valueOf d = some value ∧ IsWord value ∧
        s'.symbols.values = s.symbols.values.insert d.name value := by
  cases h with
  | blank empty =>
    have hkeyword := SourceLine.keyword_of_blank empty
    exact .inl ⟨SourceLine.definition?_eq_none (by rw [hkeyword]; rfl) (by simp [hkeyword]), rfl⟩
  | @label name _ opened named free _ defined =>
    obtain ⟨hlo, hhi, rfl⟩ := State.define_eq_ok defined
    refine .inr ⟨.label name, s.index, ?_, free, rfl, ⟨hlo, hhi⟩, SymbolTable.values_insert ..⟩
    simp [SourceLine.definition?, opened, named]
  | @directive d command mid _ closed named directed placed =>
    obtain ⟨-, rfl⟩ := State.place_eq_ok placed
    -- the table of directives has one entry for `.set`, so the other directives define nothing
    have hmem := Directive.mem_table_of_ofName? named
    cases directed with
    | @set name text operand value _ split free _ parsed resolved defined =>
      obtain ⟨hlo, hhi, rfl⟩ := State.define_eq_ok defined
      have hkeyword : line.keyword = ".set" := by simpa [Directive.table] using hmem
      have hwords := (proper_twoOperands _ _).of_ok split
      refine .inr ⟨.constant name text, value, ?_, free, ?_, ⟨hlo, hhi⟩,
        SymbolTable.values_insert ..⟩
      · rw [SourceLine.definition?, closed, if_neg Bool.false_ne_true, if_pos hkeyword, hwords]
      · simp only [State.valueOf, parsed, resolved, bind, Except.bind, Except.toOption]
    | _ =>
      refine .inl ⟨SourceLine.definition?_eq_none closed fun hkeyword => ?_, rfl⟩
      simp [hkeyword, Directive.table] at hmem
  | operation closed plain _ placed =>
    obtain ⟨-, rfl⟩ := State.place_eq_ok placed
    refine .inl ⟨SourceLine.definition?_eq_none closed fun hkeyword => ?_, rfl⟩
    rw [hkeyword] at plain
    exact absurd plain (by decide)

/-- A line with the name of a directive does what the directive does, and places its command. -/
theorem Handled.directed {d : Directive} (h : Handled search line s s')
    (named : Directive.ofName? line.keyword = some d) :
    ∃ command mid, Directed search line line.operandText s d command mid ∧
      s'.placed = s.placed.push (.ofLine line command s.index) := by
  -- a line of another kind has another keyword
  obtain ⟨hne, hclosed, hdot⟩ := Directive.startsWith_of_ofName? named
  cases h with
  | blank empty => exact absurd (SourceLine.keyword_of_blank empty) hne
  | label opened => exact absurd (hclosed.symm.trans opened) Bool.false_ne_true
  | @directive d' command mid _ _ named' directed placed =>
    cases named.symm.trans named'
    obtain ⟨-, rfl⟩ := State.place_eq_ok placed
    exact ⟨command, mid, directed, by rw [directed.placed_eq, directed.index_eq]⟩
  | operation _ plain => exact absurd (plain.symm.trans hdot) Bool.false_ne_true

end Layout

end NibbleAsm
