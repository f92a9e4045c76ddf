import NibbleAsm.Proofs.Bracketed
import NibbleAsm.Proofs.Excerpt
import NibbleAsm.Proofs.Formatting
import NibbleAsm.Proofs.Meaning

/-!
# The places of bad elements

An element of an array can fail in either pass: the first pass finds that its word is no operand,
and the second pass that its symbol is not defined. The first pass knows the line of each word and
reports it there. The second pass has the elements of an array as one list, which belongs to the
line that opens the array, and reports each of them at this line. So an element on a later line is
reported at its own line by the first pass only.

## Main definitions

* `Visit.Lists`: an array has a word on a line, behind other words
* `Assembler.MalformedElement`: the first pass comes to a word of an array that is no operand
* `Assembler.UndefinedElement`: the second pass comes to an element of an array without a value

## Main results

* `forall₂_of_readTexts`: the elements of an array are the operands that its words denote
* `Assembler.ofLayout_of_first_error`: a second pass fails at the first command that has no words
* `Assembler.assemble_element`: the places at which elements are reported
-/

namespace NibbleAsm

open Layout

/-! ## Elements and their words -/

/-- The elements of an array are the operands that its words denote. -/
theorem forall₂_of_readTexts {texts : List (SourceLine × String)} {count : Nat}
    {taken : Taken (List Operand)} (h : readTexts #[] count texts = .ok taken) :
    List.Forall₂ (fun p o => Operand.parse .word p.2 = .ok o) (arrayWords texts) taken.value := by
  rcases closesAt_or_open texts with ⟨k, l, own, after, closes⟩ | opened
  · rw [readTexts_of_closesAt closes] at h
    obtain ⟨operands, hoperands, h⟩ := bind_eq_ok.mp h
    split at h
    · cases h
      apply (mapM_eq_ok_iff.mp hoperands).imp
      intro p o ho
      exact mapError_eq_ok.mp ho
    · cases h
  · rw [readTexts_of_open opened] at h
    obtain ⟨operands, -, h⟩ := bind_eq_ok.mp h
    cases h

/-- The words of an array stand on the lines of its texts. -/
theorem mem_lines_of_mem_arrayWords {texts : List (SourceLine × String)} {l : SourceLine}
    {w : String} (h : (l, w) ∈ arrayWords texts) : l ∈ texts.map Prod.fst := by
  induction texts with
  | nil => cases h
  | cons p texts ih =>
    rw [arrayWords, upToBracket, wordsOn_cons, List.mem_append] at h
    rw [List.map_cons, List.mem_cons]
    rcases h with h | h
    · obtain ⟨w', -, hw'⟩ := List.mem_map.mp h
      exact .inl (congrArg Prod.fst hw').symm
    · -- there are words behind this text only if it has no bracket
      split at h
      · cases h
      · exact .inr (ih h)

/-- The array that a visited line opens has the word `w` on the line `l`, behind the words
`before`. -/
def Layout.Visit.Lists (v : Visit) (before : List (SourceLine × String)) (l : SourceLine)
    (w : String) : Prop :=
  ∃ text behind, v.line.OpensArray text ∧
    arrayWords (arrayTexts v.line (String.ofList text) v.state.cursor.pending) =
      before ++ (l, w) :: behind

theorem Layout.Visit.Lists.mem {v : Visit} {before : List (SourceLine × String)} {l : SourceLine}
    {w : String} (h : v.Lists before l w) : l ∈ v.line :: v.state.cursor.pending := by
  obtain ⟨text, behind, -, words⟩ := h
  have hword : (l, w) ∈
      arrayWords (arrayTexts v.line (String.ofList text) v.state.cursor.pending) := by
    rw [words]
    exact List.mem_append_right _ List.mem_cons_self
  have hline := mem_lines_of_mem_arrayWords hword
  rwa [arrayTexts, List.map_cons, map_fst_contents] at hline

/-! ## Elements in the two passes -/

namespace Layout

variable {search : Search} {v : Visit} {s s' : State} {before behind : List (SourceLine × String)}
  {l : SourceLine} {w : String}

/-- An array fails at the line of its first word that is no operand. -/
theorem Visit.Lists.step_eq {f : Failure} (h : v.Lists before l w)
    (sound : ∀ p ∈ before, ∃ o, Operand.parse .word p.2 = .ok o)
    (failed : Operand.parse .word w = .error f) :
    step search v.line v.state = .error ⟨f.locate l.location (some l.text), v.state.log⟩ := by
  obtain ⟨text, behind, opened, words⟩ := h
  have hread := readTexts_of_bad words sound failed #[] 0
  rw [← readArray_eq_readTexts] at hread
  rw [step_of_readArray opened hread, Failure.locate_locate]

/-- A word that is an operand has a value, if it is a literal or a symbol that is defined. -/
theorem exists_resolve_of_parse {o : Operand} (h : s.Sound)
    (parsed : Operand.parse .word w = .ok o)
    (known : isLiteral w = true ∨ s.symbols.values.get? w ≠ none) :
    ∃ value, o.resolve s.symbols.lookup = .ok value := by
  unfold Operand.parse at parsed
  split at parsed
  · rcases hliteral : Literal.parse .word w with e | value
    · simp [hliteral, Except.map] at parsed
    · rw [hliteral] at parsed
      cases parsed
      exact ⟨value, rfl⟩
  · next hsymbol =>
    cases parsed
    obtain ⟨value, hvalue⟩ := Option.ne_none_iff_exists'.mp (known.resolve_left hsymbol)
    have hresolve := resolve_symbol h.values w
    rw [hvalue, toOption_eq_some] at hresolve
    exact ⟨value, hresolve⟩

/-- Elements are resolved one after the other, so the first symbol without a value decides how they
fail. -/
theorem mapM_resolve_of_undefined {operands : List Operand} (h : s.Sound)
    (parsed : List.Forall₂ (fun p o => Operand.parse .word p.2 = .ok o)
      (before ++ (l, w) :: behind) operands)
    (sound : ∀ p ∈ before, isLiteral p.2 = true ∨ s.symbols.values.get? p.2 ≠ none)
    (symbol : isLiteral w = false) (free : s.symbols.values.get? w = none) :
    operands.mapM (Operand.resolve s.symbols.lookup) =
      .error (.ofCause (.undefinedSymbol w (s.symbols.similar w))) := by
  induction before generalizing operands with
  | nil =>
    cases parsed with
    | @cons _ o _ os hw _ =>
      have ho : o = .symbol w .word := by
        simpa [Operand.parse, symbol, eq_comm] using hw
      have hget : s.symbols.get? w = none := by
        simpa [SymbolTable.get?_values] using free
      rw [ho, List.mapM_cons]
      simp [Operand.resolve, SymbolTable.lookup, hget, fail, bind, Except.bind]
  | cons p before ih =>
    cases parsed with
    | @cons _ o _ os hp hrest =>
      obtain ⟨known, hbefore⟩ := List.forall_mem_cons.mp sound
      obtain ⟨value, hvalue⟩ := exists_resolve_of_parse h hp known
      rw [List.mapM_cons, hvalue, ih hrest hbefore]
      rfl

/-- A symbol without a value among the elements leaves the command of the array without words. -/
theorem Visit.Lists.exists_placed (h : v.Lists before l w)
    (handled : Handled search v.line v.state s') (final : s.Sound)
    (sound : ∀ p ∈ before, isLiteral p.2 = true ∨ s.symbols.values.get? p.2 ≠ none)
    (symbol : isLiteral w = false) (free : s.symbols.values.get? w = none) :
    ∃ command, s'.placed = v.state.placed.push (.ofLine v.line command v.state.index) ∧
      command.words s.symbols.lookup =
        .error (.ofCause (.undefinedSymbol w (s.symbols.similar w))) := by
  obtain ⟨text, behind, opened, words⟩ := h
  have named : Directive.ofName? v.line.keyword = some .array := by
    rw [opened.1]
    decide +kernel
  obtain ⟨command, mid, directed, hplaced⟩ := handled.directed named
  refine ⟨command, hplaced, ?_⟩
  cases directed with
  | array opened' read =>
    cases opened.2.symm.trans opened'
    rw [readArray_eq_readTexts] at read
    have parsed := forall₂_of_readTexts read
    rw [words] at parsed
    exact mapM_resolve_of_undefined final parsed sound symbol free

end Layout

namespace Assembler

variable {a : Assembler} {fs : FileSystem} {src : Source} {visits : List Visit} {s : State}
  {v : Visit} {l : SourceLine} {w : String} {f : Failure}

/-- A second pass fails at the first command that has no words. -/
theorem ofLayout_of_first_error {before after : List Placed} {q : Placed} (h : s.Sound)
    (placed : s.placed.toList = before ++ q :: after)
    (sound : ∀ q' ∈ before, ∃ words, q'.command.words s.symbols.lookup = .ok words)
    (failed : q.command.words s.symbols.lookup = .error f) :
    (Program.ofLayout ⟨s.placed.toList, s.symbols⟩).result = .error (q.locate f) := by
  have hrows : s.placed.toList.mapM (Placed.row s.symbols.lookup) = .error (q.locate f) := by
    rw [placed]
    apply mapM_of_first_error
    · intro q' hq'
      obtain ⟨words, hwords⟩ := sound q' hq'
      -- the row has as many words as the size of its command says
      have hmem : q' ∈ s.placed.toList := placed ▸ List.mem_append_left _ hq'
      have hsize : (words.length : Int) = q'.size := by
        rw [h.tiles.size_of_mem hmem, Command.length_words hwords]
      exact ⟨_, Placed.row_eq_ok_iff.mpr ⟨words, hwords, hsize, rfl⟩⟩
    · rw [Placed.row, failed]
  simp only [Program.ofLayout, Traced.bind_result, Traced.ofExcept_result, hrows]
  rfl

/-- The first pass comes to an array, and the first word of the array that is no operand is `w` on
the line `l`. -/
structure MalformedElement (a : Assembler) (fs : FileSystem) (src : Source) (visits : List Visit)
    (v : Visit) (l : SourceLine) (w : String) (f : Failure) : Prop where
  first : ∃ s, FirstPass a fs src visits s ∧ s.next? = some v
  failed : Operand.parse .word w = .error f
  element : ∃ before, v.Lists before l w ∧ ∀ p ∈ before, ∃ o, Operand.parse .word p.2 = .ok o

/-- The first pass is over, the second pass finds the words of all commands before an array, and the
first symbol of the array that is not defined is `w` on the line `l`. -/
structure UndefinedElement (a : Assembler) (fs : FileSystem) (src : Source) (visits : List Visit)
    (s : State) (v : Visit) (l : SourceLine) (w : String) : Prop where
  first : FirstPass a fs src visits s
  done : s.cursor.pending = []
  visited : v ∈ visits
  placed : ∀ q ∈ v.state.placed.toList, ∃ words, q.command.words s.symbols.lookup = .ok words
  symbol : isLiteral w = false
  free : s.symbols.values.get? w = none
  element : ∃ before, v.Lists before l w ∧
    ∀ p ∈ before, isLiteral p.2 = true ∨ s.symbols.values.get? p.2 ≠ none

theorem MalformedElement.assemble_eq (h : a.MalformedElement fs src visits v l w f) :
    (a.assemble fs src).result = .error (f.locate l.location (some l.text)) := by
  obtain ⟨s, first, next⟩ := h.first
  obtain ⟨before, lists, sound⟩ := h.element
  exact assemble_eq_error_iff.mpr (.line first next (lists.step_eq sound h.failed))

/-- The line of a word on which the first pass fails stands in a file that was read. -/
theorem MalformedElement.exists_reads (h : a.MalformedElement fs src visits v l w f) :
    ∃ file texts, Reads a fs src visits file texts ∧ l.StandsIn file texts := by
  obtain ⟨s, first, next⟩ := h.first
  obtain ⟨before, lists, -⟩ := h.element
  apply first.exists_reads.1
  rw [(State.pending_of_next? next).1]
  exact lists.mem

theorem UndefinedElement.assemble_eq (h : a.UndefinedElement fs src visits s v l w) :
    (a.assemble fs src).result =
      .error ((Failure.ofCause (.undefinedSymbol w (s.symbols.similar w))).locate
        v.line.location (some v.line.content)) := by
  obtain ⟨before, lists, sound⟩ := h.element
  obtain ⟨vs, ws, rfl⟩ := List.append_of_mem h.visited
  obtain ⟨-, -, trace⟩ := h.first
  obtain ⟨s₀, s₁, -, next, done, rest⟩ := trace.around
  obtain ⟨command, hcommand, failed⟩ :=
    lists.exists_placed (handled_of_step done) h.first.sound sound h.symbol h.free
  -- the commands behind the array stand behind its command, and those before it have words
  obtain ⟨after, hafter⟩ := rest.isPrefix_placed
  rw [hcommand, Array.toList_push, List.append_assoc] at hafter
  have hlayout := ofLayout_of_first_error h.first.sound hafter.symm h.placed failed
  rw [assemble_eq_error_iff.mpr (.command h.first h.done hlayout)]
  simp only [Placed.locate, Placed.ofLine]

/-- **The places at which elements of arrays are reported.** A word that is no operand is reported
at its own line, by the first pass. Only a fault, which is a decimal numeral that is too long to be
read, has no place. A symbol that is not defined is reported at the line that opens the array, by
the second pass, on whichever line of the array it stands. -/
theorem assemble_element (a : Assembler) (fs : FileSystem) (src : Source) (visits : List Visit)
    (v : Visit) (l : SourceLine) (w : String) :
    (∀ d, a.MalformedElement fs src visits v l w (.error d) →
      ∃ file texts, Reads a fs src visits file texts ∧ l.StandsIn file texts ∧
        (a.assemble fs src).result = .error (.error
          { d with location := some (.ofLine file l.number), sourceLine := some l.text })) ∧
    (∀ fault, a.MalformedElement fs src visits v l w (.fault fault) →
      (a.assemble fs src).result = .error (.fault fault)) ∧
    ∀ s, a.UndefinedElement fs src visits s v l w →
      ∃ d file texts, Reads a fs src visits file texts ∧ v.line.StandsIn file texts ∧
        (a.assemble fs src).result = .error (.error d) ∧
        d.cause = .undefinedSymbol w (s.symbols.similar w) ∧
        d.location = some (.ofLine file v.line.number) := by
  refine ⟨?_, ?_, ?_⟩
  · intro d h
    obtain ⟨file, texts, reads, stands⟩ := h.exists_reads
    obtain ⟨-, hlocation, -⟩ := (proper_parse .word w).of_error h.failed
    refine ⟨file, texts, reads, stands, ?_⟩
    rw [h.assemble_eq, SourceLine.location, stands.file_eq]
    simp [Failure.locate, Diagnostic.locate, hlocation]
  · intro fault h
    rw [h.assemble_eq]
    rfl
  · intro s h
    obtain ⟨file, texts, reads, stands⟩ := h.first.exists_reads.2 v h.visited
    refine ⟨_, file, texts, reads, stands, h.assemble_eq, rfl, ?_⟩
    rw [← stands.file_eq]
    rfl

/-- An array over two lines whose second line has a word that is no operand, or a symbol that is not
defined: the word is reported at the second line, the symbol at the first. -/
theorem assemble_element_second :
    let a := new [] .empty
    let files := FileSystem.empty []
    let source := fun text => Source.lines inputName [".array [1 # one", text]
    (∃ d, (a.assemble files (source "$FFFFF]")).result = .error (.error d) ∧
      d.cause = .tooLarge "$FFFFF" 0x10000 ∧ d.location = some (.ofLine inputName 2)) ∧
    ∃ d, (a.assemble files (source "nope]")).result = .error (.error d) ∧
      d.cause = .undefinedSymbol "nope" [] ∧ d.location = some (.ofLine inputName 1) := by
  intro a files source
  let line : SourceLine := ⟨inputName, 1, ".array [1 # one", [inputName]⟩
  let second := fun text => (⟨inputName, 2, text, [inputName]⟩ : SourceLine)
  let v := fun text => (⟨line, .start ⟨[second text], 1⟩ .predefined⟩ : Visit)
  have opened : line.OpensArray "1".toList := ⟨by decide +kernel, by decide +kernel⟩
  refine ⟨?_, ?_⟩
  · have first : FirstPass a files (source "$FFFFF]") []
        (.start ⟨[line, second "$FFFFF]"], 0⟩ .predefined) := ⟨rfl, rfl, .nil _⟩
    have lists : (v "$FFFFF]").Lists [(line, "1")] (second "$FFFFF]") "$FFFFF" :=
      ⟨_, [], opened, by decide +kernel⟩
    have malformed : a.MalformedElement files (source "$FFFFF]") [] (v "$FFFFF]")
        (second "$FFFFF]") "$FFFFF" (.ofCause (.tooLarge "$FFFFF" 0x10000)) :=
      ⟨⟨_, first, rfl⟩, by decide +kernel, _, lists,
        List.forall_mem_singleton.mpr ⟨.literal 1 .word, by decide +kernel⟩⟩
    obtain ⟨file, texts, -, stands, hresult⟩ := (assemble_element ..).1 _ malformed
    cases stands.file_eq
    exact ⟨_, hresult, rfl, rfl⟩
  · have first : FirstPass a files (source "nope]") []
        (.start ⟨[line, second "nope]"], 0⟩ .predefined) := ⟨rfl, rfl, .nil _⟩
    have lists : (v "nope]").Lists [(line, "1")] (second "nope]") "nope" :=
      ⟨_, [], opened, by decide +kernel⟩
    have hlaid : (a.layOutFor files 2 inputName [".array [1 # one", "nope]"]).map
        (fun s => (s.symbols.values.get? "nope", s.symbols.similar "nope")) = some (none, []) := by
      decide +kernel
    obtain ⟨s, hs, hsymbols⟩ := Option.map_eq_some_iff.mp hlaid
    obtain ⟨free, hsimilar⟩ := Prod.mk.inj hsymbols
    obtain ⟨visits, whole, done⟩ := exists_firstPass_of_layOutFor hs
    have undefined : a.UndefinedElement files (source "nope]") visits s (v "nope]")
        (second "nope]") "nope" :=
      ⟨whole, done, first.mem_of_next? rfl whole done, by simp [v, State.start],
        by decide +kernel, free, _, lists, List.forall_mem_singleton.mpr (.inl (by decide +kernel))⟩
    obtain ⟨d, file, texts, -, stands, hresult, hcause, hlocation⟩ :=
      (assemble_element ..).2.2 s undefined
    cases stands.file_eq
    exact ⟨d, hresult, hsimilar ▸ hcause, hlocation⟩

/-- A symbol that is not defined stands on the second line of an array only, and it is reported at
the first. -/
theorem assemble_element_misplaced :
    let a := new [] .empty
    let line : SourceLine := ⟨inputName, 1, ".array [1", [inputName]⟩
    let second : SourceLine := ⟨inputName, 2, "nope]", [inputName]⟩
    arrayWords (arrayTexts line "1" [second]) = [(line, "1"), (second, "nope")] ∧
    ∃ d, (a.assemble (.empty []) (.lines inputName [line.text, second.text])).result =
        .error (.error d) ∧
      d.cause = .undefinedSymbol "nope" [] ∧ d.location ≠ some second.location := by
  intro a line second
  have hfails : a.failureFor (.empty []) (.lines inputName [line.text, second.text]) 2 =
      some (.error ⟨.undefinedSymbol "nope" [], some line.location, none, some ".array [1"⟩) := by
    decide +kernel
  exact ⟨by decide +kernel, _, assemble_eq_error_of_failureFor hfails, rfl, by decide +kernel⟩

end Assembler

end NibbleAsm
