import NibbleAsm.Proofs.Increment
import NibbleAsm.Proofs.Pending

/-!
# The places of failures and commands

A failure of an assembly names a line that was read for it. In the first pass it is the line that is
being handled or, where an array breaks, the line at which it breaks; in the second pass it is the
line of the first command that has no words. Each row of a program names the line that asked for its
command.

## Main definitions

* `SourceLine.StandsIn`: a line is one of the lines of a file, under its number
* `Assembler.Reads`: a first pass has read a file
* `Visit.Takes`: handling a line takes another line from those to be read
* `Visit.Blames`: the line at which a failure of a line is placed
* `Assembler.Attributed`: how a failure of an assembly comes to its place

## Main results

* `FirstPass.exists_reads`: the lines of a first pass are lines of files that it has read
* `Trace.mem_placed`: commands are placed by the lines that they name
* `exists_blamed_of_step`: a line that fails has its failure placed at the line to be blamed
* `assemble_attributed`: the places of all failures and of all rows
-/

namespace NibbleAsm

open Layout

/-- A line is one of the lines of a file, and its number says which. -/
structure SourceLine.StandsIn (l : SourceLine) (file : String) (texts : List String) : Prop where
  file_eq : l.file = file
  pos : 1 ≤ l.number
  le : l.number ≤ texts.length
  text_eq : (texts[l.number - 1]?).map Text.chomp = some l.text

theorem standsIn_of_mem_numberLines {l : SourceLine} {file : String} {chain texts : List String}
    (h : l ∈ numberLines file chain texts) : l.StandsIn file texts := by
  obtain ⟨i, hi, rfl⟩ := mem_numberLines.mp h
  exact ⟨rfl, by simp, hi, by simp [hi]⟩

/-! ## Arrays that break -/

section Arrays

variable {l line : SourceLine} {f : Failure} {text : String} {pending : List SourceLine}

/-- An array that breaks at a line fails there. -/
theorem ArrayBreaks.readArray_eq (h : ArrayBreaks l f line text pending)
    (elements : Array Operand) (count : Nat) :
    readArray line text elements count pending = .error (f.locate l.location (some l.text)) := by
  induction h generalizing elements count with
  | here failed =>
    unfold readArray
    rw [arrayLine_eq_error_iff.mpr failed]
  | behind opened _ ih =>
    unfold readArray
    rw [arrayLine_eq, opened]
    exact ih _ _

/-- An array breaks at its first line, or it is not closed on the lines before the one at which it
breaks. -/
theorem ArrayBreaks.exists_before (h : ArrayBreaks l f line text pending) :
    l = line ∨ ∃ before after, pending = before ++ l :: after ∧
      ∀ elements count, readArray line text elements count before = fail .arrayNotClosed := by
  induction h with
  | here => exact .inl rfl
  | @behind line next text own rest opened _ ih =>
    refine .inr ?_
    rcases ih with rfl | ⟨before, after, hrest, hread⟩
    · refine ⟨[], rest, rfl, fun elements count => ?_⟩
      unfold readArray
      rw [arrayLine_eq, opened]
      rfl
    · refine ⟨next :: before, after, by rw [hrest]; rfl, fun elements count => ?_⟩
      unfold readArray
      rw [arrayLine_eq, opened]
      exact hread _ _

end Arrays

namespace Layout

variable {search : Search} {line l : SourceLine} {s s' : State} {v : Visit} {vs : List Visit}
  {e : Halt} {d : Diagnostic}

/-- A line that opens an array fails if the array does. -/
theorem step_of_readArray {text : List Char} {g : Failure} (opened : line.OpensArray text)
    (failed : readArray line (String.ofList text) #[] 0 s.cursor.pending = .error g) :
    step search line s = .error ⟨g.locate line.location (some line.text), s.log⟩ := by
  have hname : Directive.ofName? line.keyword = some .array := by
    rw [opened.1]
    decide +kernel
  have hdirective : directive search line .array line.operandText s = .error ⟨g, s.log⟩ := by
    unfold directive
    dsimp only
    rw [opened.2]
    refine bind_eq_error.mpr (.inl ?_)
    rw [failed]
    rfl
  rw [step_of_named hname, hdirective]
  rfl

/-- Handling a line takes another line from those to be read: if the lines end before that line,
they are not enough. -/
def Visit.Takes (search : Search) (v : Visit) (l : SourceLine) : Prop :=
  ∃ before after, v.state.cursor.pending = before ++ l :: after ∧
    ∃ e, step search v.line { v.state with cursor := ⟨before, v.state.cursor.taken⟩ } = .error e ∧
      e.failure.isUnclosed = true

/-- The array that a line opens breaks at a line. -/
def Visit.BreaksAt (v : Visit) (l : SourceLine) (f : Failure) : Prop :=
  ∃ text, v.line.OpensArray text ∧
    ArrayBreaks l f v.line (String.ofList text) v.state.cursor.pending

/-- The line at which a failure of a line is placed: where the array that it opens breaks, or else
the line itself. -/
inductive Visit.Blames (v : Visit) : SourceLine → Prop
  | array {l : SourceLine} {f : Failure} (breaks : v.BreaksAt l f) : Blames v l
  | statement (sound : ∀ l f, ¬v.BreaksAt l f) : Blames v v.line

theorem Visit.BreaksAt.taken {f : Failure} (h : v.BreaksAt l f) :
    l = v.line ∨ v.Takes search l := by
  obtain ⟨text, opened, breaks⟩ := h
  refine breaks.exists_before.imp_right ?_
  rintro ⟨before, after, hpending, hread⟩
  refine ⟨before, after, hpending, _, step_of_readArray opened (hread _ _), ?_⟩
  rfl

/-- A failure without a place, or with that of the line, has the place of the line in the end. -/
theorem location_of_isAt {f : Failure} {location : Option Location} {aboutFile : Bool}
    {shown : Option String} (h : f.IsAt location aboutFile)
    (hlocation : location = none ∨ location = some line.location)
    (hd : f.locate line.location shown = .error d) : d.location = some line.location := by
  cases f with
  | unfinished => exact h.elim
  | fault => cases hd
  | error d₀ =>
    cases hd
    unfold Diagnostic.locate
    have hplace := h.2.1
    rcases hlocation with rfl | rfl
    · rw [hplace]
    · rw [hplace]
      exact hplace

/-- **A line that fails has its failure placed at the line to be blamed**, which has been taken from
the lines to be read. -/
theorem exists_blamed_of_step (failed : step search v.line v.state = .error e)
    (hd : e.failure = .error d) :
    ∃ l, v.Blames l ∧ (l = v.line ∨ v.Takes search l) ∧ d.location = some l.location := by
  by_cases hbreaks : ∃ l f, v.BreaksAt l f
  · -- an array that breaks decides the failure
    obtain ⟨l, f, hbreaks⟩ := hbreaks
    refine ⟨l, .array hbreaks, hbreaks.taken, ?_⟩
    obtain ⟨text, opened, breaks⟩ := hbreaks
    have hstep : step search v.line v.state = _ :=
      step_of_readArray opened (breaks.readArray_eq #[] 0)
    cases failed.symm.trans hstep
    have hplace := breaks.isAt
    cases f with
    | unfinished => exact hplace.elim
    | fault => cases hd
    | error d₀ =>
      cases hd
      simp [Diagnostic.locate, hplace.2.1]
  · have hsound : ∀ l f, ¬v.BreaksAt l f := fun l f h => hbreaks ⟨l, f, h⟩
    refine ⟨v.line, .statement hsound, .inl rfl, ?_⟩
    obtain ⟨f, hf, he⟩ := (ends_step search v.line v.state).of_error failed
    rw [he] at hd
    cases hf with
    | bare h => exact location_of_isAt h (.inl rfl) hd
    | file h => exact location_of_isAt h (.inr rfl) hd
    | array text opened breaks => exact absurd ⟨text, opened, breaks⟩ (hsound _ _)

/-! ## Commands -/

/-- **Commands are placed by the lines that they name.** -/
theorem Trace.mem_placed {q : Placed} (h : Trace search s vs s') (hq : q ∈ s'.placed.toList) :
    q ∈ s.placed.toList ∨ ∃ v ∈ vs, ∃ command address, q = .ofLine v.line command address := by
  induction h with
  | nil => exact .inl hq
  | @cons s mid s' v vs next done _ ih =>
    rcases ih hq with hmid | ⟨w, hw, command, address, rfl⟩
    · rw [← (State.frame_of_next? next).2.2]
      rcases (handled_of_step done).extends with ⟨-, hplaced⟩ | ⟨command, -, -, -, hplaced⟩
      · rw [hplaced] at hmid
        exact .inl hmid
      · rw [hplaced, Array.toList_push, List.mem_append, List.mem_singleton] at hmid
        rcases hmid with hmid | rfl
        · exact .inl hmid
        · exact .inr ⟨v, List.mem_cons_self, command, _, rfl⟩
    · exact .inr ⟨w, List.mem_cons_of_mem _ hw, command, address, rfl⟩

end Layout

namespace Assembler

variable {a : Assembler} {fs : FileSystem} {src : Source} {visits : List Visit} {s : State}
  {v : Visit} {file : String} {texts : List String}

/-- A first pass has read a file with some lines: it is the source, or a line that has been handled
includes it. -/
inductive Reads (a : Assembler) (fs : FileSystem) (src : Source) (visits : List Visit) :
    String → List String → Prop
  | source {file : String} {texts : List String} (read : src.read fs = .ok (file, texts)) :
      Reads a fs src visits file texts
  | included {v : Visit} {path : FilePath} {texts : List String} (visited : v ∈ visits)
      (includes : v.line.Includes ⟨fs, a.directories⟩ path texts) :
      Reads a fs src visits path.text texts

/-- **The lines of a first pass are lines of files that it has read.** -/
theorem FirstPass.exists_reads (first : FirstPass a fs src visits s) :
    (∀ l ∈ s.cursor.pending, ∃ file texts, Reads a fs src visits file texts ∧
      l.StandsIn file texts) ∧
    ∀ v ∈ visits, ∃ file texts, Reads a fs src visits file texts ∧ v.line.StandsIn file texts := by
  apply first.forall_lines
  · intro file texts read l hl
    exact ⟨file, texts, .source read, standsIn_of_mem_numberLines hl⟩
  · rintro v hv l ⟨path, texts, includes, hl⟩ -
    exact ⟨path.text, texts, .included hv includes, standsIn_of_mem_numberLines hl⟩

theorem FirstPass.exists_visit_of_placed {q : Placed} (first : FirstPass a fs src visits s)
    (hq : q ∈ s.placed.toList) :
    ∃ v ∈ visits, q.location = some v.line.location ∧ q.source = v.line.content := by
  obtain ⟨-, -, trace⟩ := first
  rcases trace.mem_placed hq with hstart | ⟨v, hv, command, address, rfl⟩
  · simp [State.start] at hstart
  · exact ⟨v, hv, by simp only [Placed.ofLine], by simp only [Placed.ofLine]⟩

/-- How a failure of an assembly comes to its place. Reading the source and defining the names that
were given are not about lines. In the first pass, a line fails, and the failure is placed at the
line to be blamed, which was taken for it. In the second pass, which follows a whole first pass, the
first command that has no words fails, and the failure is placed at the line that asked for it.
These lines stand in files that were read. -/
inductive Attributed (a : Assembler) (fs : FileSystem) (src : Source) (d : Diagnostic) : Prop
  | read (failed : src.read fs = .error (.error d))
  | define {lines : String × List String} (read : src.read fs = .ok lines)
      (failed : ((defineAll a.defines.toList).exec .predefined).result = .error (.error d))
  | line {visits : List Visit} {s : State} {v : Visit} {l : SourceLine} {e : Halt} {file : String}
      {texts : List String} (first : FirstPass a fs src visits s) (next : s.next? = some v)
      (failed : step ⟨fs, a.directories⟩ v.line v.state = .error e)
      (report : e.failure = .error d) (blamed : v.Blames l)
      (taken : l = v.line ∨ v.Takes ⟨fs, a.directories⟩ l)
      (reads : Reads a fs src visits file texts) (stands : l.StandsIn file texts)
      (location : d.location = some (.ofLine file l.number))
  | command {visits : List Visit} {s : State} {before after : List Placed} {q : Placed}
      {f : Failure} {v : Visit} {file : String} {texts : List String}
      (first : FirstPass a fs src visits s) (done : s.cursor.pending = [])
      (placed : s.placed.toList = before ++ q :: after)
      (sound : ∀ q' ∈ before, ∃ words, q'.command.words s.symbols.lookup = .ok words)
      (failed : q.command.words s.symbols.lookup = .error f)
      (report : q.locate f = .error d) (visited : v ∈ visits)
      (asked : q.location = some v.line.location)
      (reads : Reads a fs src visits file texts) (stands : v.line.StandsIn file texts)
      (location : d.location = some (.ofLine file v.line.number))

/-- A line that is handled, and each line that it takes, stands in a file that was read. -/
theorem FirstPass.exists_reads_of_taken {l : SourceLine} (first : FirstPass a fs src visits s)
    (next : s.next? = some v) (taken : l = v.line ∨ v.Takes ⟨fs, a.directories⟩ l) :
    ∃ file texts, Reads a fs src visits file texts ∧ l.StandsIn file texts := by
  apply first.exists_reads.1
  rw [(State.pending_of_next? next).1]
  rcases taken with rfl | ⟨before, after, hpending, -⟩
  · exact List.mem_cons_self
  · rw [hpending]
    simp

/-- A failure of the first pass comes to its place. -/
theorem attributed_of_step {e : Halt} {d : Diagnostic} (first : FirstPass a fs src visits s)
    (next : s.next? = some v) (failed : step ⟨fs, a.directories⟩ v.line v.state = .error e)
    (report : e.failure = .error d) : a.Attributed fs src d := by
  obtain ⟨l, blamed, taken, hlocation⟩ := exists_blamed_of_step failed report
  obtain ⟨file, texts, reads, stands⟩ := first.exists_reads_of_taken next taken
  refine .line first next failed report blamed taken reads stands ?_
  rw [hlocation, SourceLine.location, stands.file_eq]

/-- A failure of the second pass comes to its place. -/
theorem attributed_of_ofLayout {d : Diagnostic} (first : FirstPass a fs src visits s)
    (done : s.cursor.pending = [])
    (failed : (Program.ofLayout ⟨s.placed.toList, s.symbols⟩).result = .error (.error d)) :
    a.Attributed fs src d := by
  obtain ⟨before, q, after, f, placed, sound, hwords, hbare, report⟩ :=
    exists_of_ofLayout_eq_error first.sound failed
  have hq : q ∈ s.placed.toList := placed ▸ List.mem_append_right _ List.mem_cons_self
  obtain ⟨v, visited, asked, -⟩ := first.exists_visit_of_placed hq
  obtain ⟨file, texts, reads, stands⟩ := first.exists_reads.2 v visited
  refine .command first done placed sound hwords report.symm visited asked reads stands ?_
  rw [Placed.locate, asked] at report
  rw [← stands.file_eq]
  exact location_of_isAt hbare (.inl rfl) report.symm

/-- **The places of all failures and of all rows.** A failure of an assembly comes to its place as
`Attributed` says. In a program, each row names a line that was handled, by its place in a file that
was read, and the content of this line. -/
theorem assemble_attributed (a : Assembler) (fs : FileSystem) (src : Source) :
    (∀ d, (a.assemble fs src).result = .error (.error d) → a.Attributed fs src d) ∧
    ∀ p, (a.assemble fs src).result = .ok p →
      ∃ visits s, FirstPass a fs src visits s ∧ s.cursor.pending = [] ∧
        ∀ r ∈ p.rows, ∃ v ∈ visits, ∃ file texts, Reads a fs src visits file texts ∧
          v.line.StandsIn file texts ∧ r.location = some (.ofLine file v.line.number) ∧
          r.source = v.line.content := by
  constructor
  · intro d hd
    have hfails := assemble_eq_error_iff.mp hd
    generalize hf : Failure.error d = f at hfails
    cases hfails with
    | read failed => exact .read (hf ▸ failed)
    | define read failed => exact .define read (hf ▸ failed)
    | line first next failed => exact attributed_of_step first next failed hf.symm
    | endless => cases hf
    | command first done failed => exact attributed_of_ofLayout first done (hf ▸ failed)
  · intro p hp
    obtain ⟨visits, s, first, done, second⟩ := (proper_assemble a fs src).of_ok hp
    refine ⟨visits, s, first, done, fun r hr => ?_⟩
    -- a row has the place and the content of its command
    obtain ⟨q, hq, hrow⟩ := second.exists_placed hr
    obtain ⟨words, -, -, rfl⟩ := Placed.row_eq_ok_iff.mp hrow
    obtain ⟨v, hv, hlocation, hsource⟩ := first.exists_visit_of_placed hq
    obtain ⟨file, texts, reads, stands⟩ := first.exists_reads.2 v hv
    refine ⟨v, hv, file, texts, reads, stands, ?_, hsource⟩
    rw [hlocation, SourceLine.location, stands.file_eq]

/-- An array that breaks on its second line, in an included file; a symbol that is not defined; and
a program with a row from an included file. -/
theorem assemble_attributed_included :
    let files := ((FileSystem.empty ["w"]).set ["w", "t"] (.file (textBytes ".array [1\n12a]"))).set
      ["w", "u"] (.file (textBytes "# none\n.word 7"))
    let a := new [] .empty
    (∃ d, (a.assemble files (.lines inputName ["NOP", ".include t"])).result = .error (.error d) ∧
      d.location = some (.ofLine "t" 2) ∧
      a.Attributed files (.lines inputName ["NOP", ".include t"]) d) ∧
    (∃ d, (a.assemble files (.lines inputName ["NOP", ".word enb", "(end)"])).result =
        .error (.error d) ∧ d.location = some (.ofLine inputName 2) ∧
      a.Attributed files (.lines inputName ["NOP", ".word enb", "(end)"]) d) ∧
    ∃ p visits s, (a.assemble files (.lines inputName [".include u"])).result = .ok p ∧
      p.rows.map Row.location = [some (.ofLine inputName 1), some (.ofLine "u" 2)] ∧
      FirstPass a files (.lines inputName [".include u"]) visits s ∧ s.cursor.pending = [] ∧
      ∀ r ∈ p.rows, ∃ v ∈ visits, ∃ file texts,
        Reads a files (.lines inputName [".include u"]) visits file texts ∧
        v.line.StandsIn file texts ∧ r.location = some (.ofLine file v.line.number) ∧
        r.source = v.line.content := by
  intro files a
  have hbreaks : a.failureFor files (.lines inputName ["NOP", ".include t"]) 4 =
      some (.error ⟨.malformedInteger "12a", some (.ofLine "t" 2), none, some "12a]"⟩) := by
    decide +kernel
  have hmissing : a.failureFor files (.lines inputName ["NOP", ".word enb", "(end)"]) 4 =
      some (.error ⟨.undefinedSymbol "enb" ["end"], some (.ofLine inputName 2),
        some "did you mean 'end'?", some ".word enb"⟩) := by decide +kernel
  have hprogram : (a.assembleFor files 4 inputName [".include u"]).map
      (fun p => p.rows.map Row.location) =
      some [some (.ofLine inputName 1), some (.ofLine "u" 2)] := by decide +kernel
  refine ⟨?_, ?_, ?_⟩
  · have hd := assemble_eq_error_of_failureFor hbreaks
    exact ⟨_, hd, rfl, (assemble_attributed a files _).1 _ hd⟩
  · have hd := assemble_eq_error_of_failureFor hmissing
    exact ⟨_, hd, rfl, (assemble_attributed a files _).1 _ hd⟩
  · obtain ⟨p, hp, hrows⟩ := Option.map_eq_some_iff.mp hprogram
    have hok := assemble_eq_ok_of_assembleFor hp
    obtain ⟨visits, s, first, done, hlines⟩ := (assemble_attributed a files _).2 p hok
    exact ⟨p, visits, s, hok, hrows, first, done, hlines⟩

end Assembler

end NibbleAsm
