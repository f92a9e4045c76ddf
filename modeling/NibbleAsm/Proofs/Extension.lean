import NibbleAsm.Proofs.Meaning

/-!
# Tables with further names

An operand that has a value keeps it when further names get values, since looking up a name does not
depend on the others. So a first pass that succeeds goes through in the same way with a table that
has more to say: it places the same commands, and a name that its lines define has the same value
behind them. What a program was not given cannot change it.

## Main definitions

* `Scope.Le`: scopes of which the second keeps the values of the first
* `Visit.Defines`: lines that define a name
* `State.Extends base`: states of which the second has further names, with the values `base`

## Main results

* `keeps_words`: a command keeps its words in a scope with more names
* `Extends.step`, `Extends.trace`: lines and traces that succeed do so with more names
* `Trace.isSome_get?`: a name has a value if it had one before or a line defines it
* `assemble_insert`: a further definition does not change a program
-/

namespace NibbleAsm

variable {α : Type}

/-! ## Scopes with more names -/

/-- The second scope keeps the values of the first. -/
def Scope.Le (scope scope' : Scope) : Prop :=
  ∀ name value, scope name = .ok value → scope' name = .ok value

/-- The second operation has the value of the first, if that has one. -/
abbrev Keeps (x y : Except Failure α) : Prop :=
  Follows True (fun _ _ => True) Eq x y

theorem keeps_self (x : Except Failure α) : Keeps x x := by
  cases x with
  | ok a => exact .ok rfl
  | error f => exact .excused trivial

theorem Keeps.of_ok {x y : Except Failure α} {a : α} (h : Keeps x y) (hx : x = .ok a) :
    y = .ok a := by
  obtain ⟨b, hy, rfl⟩ := h.exists_of_ok hx
  exact hy

section Scopes

variable {scope scope' : Scope} (h : scope.Le scope')
include h

theorem keeps_resolve (o : Operand) : Keeps (o.resolve scope) (o.resolve scope') := by
  cases o with
  | literal value w => exact .ok rfl
  | symbol name w =>
    unfold Operand.resolve
    dsimp only
    cases hname : scope name with
    | error f => exact .excused trivial
    | ok value =>
      rw [h name value hname]
      exact keeps_self _

theorem keeps_nibbles (f : Fields) : Keeps (f.nibbles scope) (f.nibbles scope') := by
  unfold Fields.nibbles
  cases f with
  | plain => exact .ok rfl
  | byteRegister byte target =>
    refine (keeps_resolve h byte).bind_eq fun _ => ?_
    exact (keeps_resolve h target).bind_eq fun _ => keeps_self _
  | sourceDestination source destination =>
    refine (keeps_resolve h source).bind_eq fun _ => ?_
    exact (keeps_resolve h destination).bind_eq fun _ => keeps_self _
  | addressRegister address stored =>
    refine (keeps_resolve h address).bind_eq fun _ => ?_
    exact (keeps_resolve h stored).bind_eq fun _ => keeps_self _
  | threeFields first second third =>
    refine (keeps_resolve h first).bind_eq fun _ => ?_
    refine (keeps_resolve h second).bind_eq fun _ => ?_
    exact (keeps_resolve h third).bind_eq fun _ => keeps_self _
  | shift source direction amount destination =>
    refine (keeps_resolve h amount).bind_eq fun _ => ?_
    refine (keeps_self _).bind_eq fun _ => ?_
    refine (keeps_resolve h source).bind_eq fun _ => ?_
    exact (keeps_resolve h destination).bind_eq fun _ => keeps_self _
  | branch condition value address =>
    refine (keeps_resolve h value).bind_eq fun _ => ?_
    exact (keeps_resolve h address).bind_eq fun _ => keeps_self _
  | register target => exact (keeps_resolve h target).bind_eq fun _ => keeps_self _

/-- **A command keeps its words in a scope with more names.** -/
theorem keeps_words (c : Command) : Keeps (c.words scope) (c.words scope') := by
  unfold Command.words
  cases c with
  | instruction i =>
    have hword : Keeps (i.word scope) (i.word scope') :=
      (keeps_nibbles h i.fields).bind_eq fun _ => keeps_self _
    exact hword.bind_eq fun _ => keeps_self _
  | loadWord value register =>
    refine (keeps_resolve h value).bind_eq fun _ => ?_
    exact (keeps_resolve h register).bind_eq fun _ => keeps_self _
  | values operands =>
    have hmap : Follows True (fun _ _ => True) (List.Forall₂ Eq)
        (operands.mapM (Operand.resolve scope)) (operands.mapM (Operand.resolve scope')) :=
      .mapM (R := Eq) (List.forall₂_refl operands) fun o _ ho => ho ▸ keeps_resolve h o
    rwa [List.forall₂_eq_eq_eq] at hmap
  | fill count value => exact (keeps_resolve h value).bind_eq fun _ => keeps_self _
  | block | zeros | nothing => exact keeps_self _

theorem Placed.row_mono {q : Placed} {r : Row} (hr : q.row scope = .ok r) :
    q.row scope' = .ok r := by
  obtain ⟨words, hwords, hrow⟩ := Placed.row_eq_ok_iff.mp hr
  exact Placed.row_eq_ok_iff.mpr ⟨words, (keeps_words h q.command).of_ok hwords, hrow⟩

end Scopes

/-! ## States with more names -/

namespace Layout

variable {search : Search} {line : SourceLine} {args name : String} {base : String → Option Int}
  {s s' t mid : State} {v : Visit} {vs : List Visit}

/-- A visited line defines a name. -/
def Visit.Defines (v : Visit) (name : String) : Prop :=
  ∃ d, v.line.definition? = some d ∧ d.name = name

/-- States that differ in their tables: a name without a value in the first has the value that
`base` gives, if any, in the second. -/
structure State.Extends (base : String → Option Int) (s t : State) : Prop where
  cursor : t.cursor = s.cursor
  index : t.index = s.index
  placed : t.placed = s.placed
  values : ∀ name, t.symbols.values.get? name = (s.symbols.values.get? name).or (base name)

namespace State.Extends

theorem scope (h : s.Extends base t) : Scope.Le s.symbols.lookup t.symbols.lookup := by
  intro name value hvalue
  rw [SymbolTable.lookup_eq_ok_iff] at hvalue ⊢
  rw [h.values, hvalue]
  rfl

theorem define {value : Int} {location : Location} (h : s.Extends base t)
    (defined : s.define name value location = .ok s') :
    ∃ t', t.define name value location = .ok t' ∧ s'.Extends base t' := by
  obtain ⟨hlo, hhi, rfl⟩ := State.define_eq_ok defined
  have hcheck := SymbolTable.checkValue_of_isWord name ⟨hlo, hhi⟩
  refine ⟨_, State.define_of_ok hcheck, h.cursor, h.index, h.placed, fun other => ?_⟩
  simp only [State.bound, SymbolTable.values_insert, Bindings.get?_insert, h.values]
  split <;> rfl

theorem place {command : Command} (h : s.Extends base t)
    (placed : s.place line line.keyword command = .ok s') :
    ∃ t', t.place line line.keyword command = .ok t' ∧ s'.Extends base t' := by
  obtain ⟨hle, rfl⟩ := State.place_eq_ok placed
  refine ⟨_, State.place_of_le (h.index ▸ hle), h.cursor, ?_, ?_, h.values⟩
  · rw [h.index]
  · rw [h.index, h.placed]

/-- A directive that succeeds does so with more names, and asks for the same command. -/
theorem directed {d : Directive} {command : Command} (h : s.Extends base t)
    (directed : Directed search line args s d command mid) :
    ∃ mid', Directed search line args t d command mid' ∧ mid.Extends base mid' := by
  have hresolve {o : Operand} {value : Int} (hs : o.resolve s.symbols.lookup = .ok value) :
      o.resolve t.symbols.lookup = .ok value := (keeps_resolve h.scope o).of_ok hs
  have hpending : t.cursor.pending = s.cursor.pending := congrArg Cursor.pending h.cursor
  cases directed with
  | set split free bare parsed resolved defined =>
    obtain ⟨t', hdefine, ht'⟩ := h.define defined
    exact ⟨t', .set split free bare parsed (hresolve resolved) hdefine, ht'⟩
  | word split parsed => exact ⟨t, .word split parsed, h⟩
  | array opened read =>
    refine ⟨_, .array opened (hpending ▸ read), ?_, h.index, h.placed, h.values⟩
    rw [State.take, State.take, h.cursor]
  | fillArray split counted resolved parsed =>
    exact ⟨t, .fillArray split counted (hresolve resolved) parsed, h⟩
  | move split parsed resolved ahead =>
    refine ⟨t, ?_, h⟩
    rw [← h.index] at ahead ⊢
    exact .move split parsed (hresolve resolved) ahead
  | string encoded => exact ⟨t, .string encoded, h⟩
  | longString split known read encoded =>
    refine ⟨_, .longString split known (hpending ▸ read) encoded, ?_, h.index, h.placed, h.values⟩
    rw [State.take, State.take, h.cursor]
  | @includeFile _ path texts _ split found closed read =>
    refine ⟨{ t with cursor := t.cursor.splice path.text texts line },
      .includeFile split found closed read, ?_, h.index, h.placed, h.values⟩
    rw [h.cursor]
  | copy split found read =>
    exact ⟨t, .copy split found read, h.cursor, h.index, h.placed, h.values⟩

theorem handled (h : s.Extends base t) (handled : Handled search line s s') :
    ∃ t', Handled search line t t' ∧ s'.Extends base t' := by
  cases handled with
  | blank empty => exact ⟨t, .blank empty, h⟩
  | label opened named free inside defined =>
    obtain ⟨t', hdefine, ht'⟩ := h.define defined
    rw [← h.index] at inside hdefine
    exact ⟨t', .label opened named free inside hdefine, ht'⟩
  | directive closed named directed placed =>
    obtain ⟨mid', hdirected, hmid⟩ := h.directed directed
    obtain ⟨t', hplace, ht'⟩ := hmid.place placed
    exact ⟨t', .directive closed named hdirected hplace, ht'⟩
  | operation closed plain built placed =>
    obtain ⟨t', hplace, ht'⟩ := h.place placed
    exact ⟨t', .operation closed plain built hplace, ht'⟩

/-- **A line that succeeds does so with more names.** -/
theorem step (h : s.Extends base t) (done : step search line s = .ok s') :
    ∃ t', Layout.step search line t = .ok t' ∧ s'.Extends base t' := by
  obtain ⟨t', hhandled, ht'⟩ := h.handled (handled_of_step done)
  obtain ⟨log, hstep⟩ := hhandled.exists_step
  exact ⟨_, hstep, ht'.cursor, ht'.index, ht'.placed, ht'.values⟩

theorem next? (h : s.Extends base t) (next : s.next? = some v) :
    ∃ w, t.next? = some w ∧ w.line = v.line ∧ v.state.Extends base w.state := by
  obtain ⟨hpending, hstate⟩ := State.pending_of_next? next
  rw [← h.cursor] at hpending
  refine ⟨_, State.next?_of_pending hpending, rfl, ?_⟩
  rw [hstate, h.cursor]
  exact ⟨rfl, h.index, h.placed, h.values⟩

/-- **A trace goes through with more names.** -/
theorem trace (h : s.Extends base t) (trace : Trace search s vs s') :
    ∃ ws t', Trace search t ws t' ∧ s'.Extends base t' := by
  refine trace.simulate (fun h next done => ?_) h
  obtain ⟨w, hw, hline, hstate⟩ := h.next? next
  obtain ⟨mid', hmid, hextends⟩ := hstate.step done
  exact ⟨w, mid', hw, hline ▸ hmid, hextends⟩

end State.Extends

/-- A name has a value behind a line if it had one before or the line defines it. -/
theorem isSome_get?_of_step (next : s.next? = some v)
    (done : step search v.line v.state = .ok s') (name : String) :
    (s'.symbols.values.get? name).isSome = true ↔
      (s.symbols.values.get? name).isSome = true ∨ v.Defines name := by
  rw [← (State.frame_of_next? next).1]
  rcases (handled_of_step done).binds with ⟨hnone, hs⟩ | ⟨d, value, hd, -, -, -, hs⟩
  · simp [Visit.Defines, hnone, hs]
  · rw [hs, Bindings.get?_insert]
    by_cases hname : name = d.name
    · simp [Visit.Defines, hd, hname]
    · simp [Visit.Defines, hd, hname, Ne.symm hname]

/-- **A name has a value behind some lines if it had one before or a line defines it.** -/
theorem Trace.isSome_get? (trace : Trace search s vs s') (name : String) :
    (s'.symbols.values.get? name).isSome = true ↔
      (s.symbols.values.get? name).isSome = true ∨ ∃ v ∈ vs, v.Defines name := by
  induction trace with
  | nil => simp
  | cons next done _ ih =>
    rw [ih, isSome_get?_of_step next done, or_assoc]
    simp

end Layout

/-! ## Programs with more names -/

open Layout

theorem SecondPass.of_extends {base : String → Option Int} {s t : State} {p : Program}
    (second : SecondPass s p) (h : s.Extends base t) :
    SecondPass t ⟨p.words, t.symbols.values, p.rows⟩ where
  rows := by
    rw [h.placed]
    exact second.rows.imp fun q r hr => Placed.row_mono h.scope hr
  words := second.words
  symbols := rfl

namespace Assembler

variable {a : Assembler} {fs : FileSystem} {src : Source} {name : String} {value : Int}
  {p : Program}

theorem givenValue_eq_none (fresh : name ∉ a.defines.names)
    (unknown : name ∉ predefinedNames.map Prod.fst) : a.givenValue name = none := by
  have hgiven : a.defines.toList.reverse.lookup name = none :=
    Bindings.lookup_eq_none (by simpa [Bindings.names] using fresh)
  rw [givenValue, hgiven, Bindings.lookup_eq_none unknown]
  rfl

/-- A further definition gives a value where none was given. -/
theorem givenValue_insert (fresh : name ∉ a.defines.names)
    (unknown : name ∉ predefinedNames.map Prod.fst) (value : Int) (other : String) :
    ({ a with defines := a.defines.insert name value } : Assembler).givenValue other =
      (a.givenValue other).or (if other = name then some value else none) := by
  by_cases hname : other = name
  · subst hname
    rw [givenValue_eq_none fresh unknown, givenValue, Bindings.toList_insert fresh]
    simp
  · rw [givenValue, Bindings.toList_insert fresh, List.reverse_append, List.reverse_singleton,
      List.singleton_append, Bindings.lookup_cons_eq]
    simp [hname, givenValue]

/-- Before the first line, the table of a further definition differs in its name alone. -/
theorem extends_start {symbols symbols' : SymbolTable} (cursor : Cursor)
    (fresh : name ∉ a.defines.names) (unknown : name ∉ predefinedNames.map Prod.fst)
    (defined : ((defineAll a.defines.toList).exec .predefined).result = .ok symbols)
    (defined' : ((defineAll (a.defines.insert name value).toList).exec .predefined).result =
      .ok symbols') :
    State.Extends (fun other => if other = name then some value else none)
      (.start cursor symbols) (.start cursor symbols') := by
  refine ⟨rfl, rfl, rfl, fun other => ?_⟩
  change symbols'.values.get? other = (symbols.values.get? other).or _
  rw [get?_defineAll defined, ← givenValue_insert fresh unknown value]
  exact get?_defineAll (a := { a with defines := a.defines.insert name value }) defined' other

/-- **A further definition does not change a program.** If a name is neither predefined nor given
to the assembler, a program is assembled in the same way when the name is given a value: with the
same words, the same commands and the same values of all other symbols. The name has the value that
the lines define, and the given one if they do not define it. -/
theorem assemble_insert (h : (a.assemble fs src).result = .ok p) (fresh : name ∉ a.defines.names)
    (unknown : name ∉ predefinedNames.map Prod.fst) (word : IsWord value) :
    ∃ q visits s,
      (assemble { a with defines := a.defines.insert name value } fs src).result = .ok q ∧
      q.words = p.words ∧ q.rows = p.rows ∧
      (∀ other, other ≠ name → q.symbols.get? other = p.symbols.get? other) ∧
      FirstPass a fs src visits s ∧ s.cursor.pending = [] ∧
      ((∃ v ∈ visits, v.Defines name) →
        (p.symbols.get? name).isSome = true ∧ q.symbols.get? name = p.symbols.get? name) ∧
      ((¬ ∃ v ∈ visits, v.Defines name) →
        p.symbols.get? name = none ∧ q.symbols.get? name = some value) := by
  obtain ⟨visits, s, first, done, second⟩ := (proper_assemble a fs src).of_ok h
  obtain @⟨file, texts, symbols, read, defined, trace⟩ := first
  have hwords := ((proper_defineAll _ _).of_ok defined).2
  have hinsert : ∀ pair ∈ (a.defines.insert name value).toList, IsWord pair.2 := by
    intro pair hpair
    rcases Bindings.mem_insertPair hpair with rfl | hpair
    · exact word
    · exact hwords pair hpair
  obtain ⟨symbols', defined'⟩ := exists_defineAll .predefined hinsert
  -- the tables before the first line differ in this name alone, and so they do behind every line
  have hstart := extends_start (Cursor.empty.splice file texts none) fresh unknown defined defined'
  obtain ⟨visits', t, trace', hextends⟩ := hstart.trace trace
  have done' : t.cursor.pending = [] := by
    rw [hextends.cursor]
    exact done
  have hsymbols := hextends.values
  have hdefined := trace.isSome_get? name
  rw [State.start, get?_defineAll defined, givenValue_eq_none fresh unknown] at hdefined
  rw [← second.symbols] at hsymbols hdefined
  refine ⟨_, visits, s, assemble_eq_ok ⟨read, defined', trace'⟩ done' (second.of_extends hextends),
    rfl, rfl, fun other hother => ?_, ⟨read, defined, trace⟩, done, fun hvisit => ?_,
    fun hvisit => ?_⟩
  · rw [hsymbols, if_neg hother, Option.or_none]
  · have hsome := hdefined.mpr (.inr hvisit)
    refine ⟨hsome, ?_⟩
    rw [hsymbols, Option.or_of_isSome hsome]
  · have hnone : p.symbols.get? name = none := by simpa [hvisit] using hdefined
    refine ⟨hnone, ?_⟩
    rw [hsymbols, hnone, if_pos rfl]
    rfl

/-- A name that is given a value and used before the line that defines it. -/
theorem assemble_insert_late :
    let src := Source.lines inputName [".word n", ".fill-array m n", ".set n 5"]
    let a := new [] (.ofList [("m", 2)])
    let files := FileSystem.empty []
    ∃ p, (a.assemble files src).result = .ok p ∧ p.words = [5, 5, 5] ∧
      ∃ q visits s,
        (assemble { a with defines := a.defines.insert "n" 9 } files src).result = .ok q ∧
        q.words = p.words ∧ q.rows = p.rows ∧
        (∀ other, other ≠ "n" → q.symbols.get? other = p.symbols.get? other) ∧
        FirstPass a files src visits s ∧ s.cursor.pending = [] ∧
        ((∃ v ∈ visits, v.Defines "n") →
          (p.symbols.get? "n").isSome = true ∧ q.symbols.get? "n" = p.symbols.get? "n") ∧
        ((¬ ∃ v ∈ visits, v.Defines "n") →
          p.symbols.get? "n" = none ∧ q.symbols.get? "n" = some 9) := by
  intro src a files
  have hprogram : (a.assembleFor files 4 inputName [".word n", ".fill-array m n", ".set n 5"]).map
      Program.words = some [5, 5, 5] := by decide +kernel
  obtain ⟨p, hp, hwords⟩ := Option.map_eq_some_iff.mp hprogram
  have hok := assemble_eq_ok_of_assembleFor hp
  exact ⟨p, hok, hwords, assemble_insert hok (by decide) (by decide +kernel) (by decide)⟩

end Assembler

end NibbleAsm
