import NibbleAsm.Proofs.Attribution

/-!
# Lines shown in reports

The report of a failure names a place and shows the line at this place, if it is given the line. A
failure about a text gets both from the line that is handled. A failure about a file has its place
from the start, and a failure with a place takes no line any more. So every report on a line shows
the line, except where a file is not found or cannot be read.

## Main definitions

* `Diagnostic.Excerpt l d`: what the report `d` shows of the line `l`

## Main results

* `Failure.locate_locate`: the first place of a failure stays
* `excerpt_of_bare`, `excerpt_of_file`: what the reports on texts and on files show
* `exists_excerpt_of_step`: what the report of a line that fails shows
* `assemble_excerpt`: what the report of an assembly that fails shows
-/

namespace NibbleAsm

open Layout

/-! ## Reports on lines -/

/-- What a report shows of the line at its place. A report about a text shows the line under its
place and description, as it stands or without comment and outer blanks. A report about a file shows
nothing of the line. -/
inductive Diagnostic.Excerpt (l : SourceLine) (d : Diagnostic) : Prop
  | shown {line : String} (plain : d.cause.isAboutFile = false)
      (own : line = l.text ∨ line = l.content) (sourceLine : d.sourceLine = some line)
      (report : d.text = Text.join "\n"
        ((l.location.text ++ ": error: " ++ d.message) :: ("    " ++ line) :: d.hintLines))
  | hidden (about : d.cause.isAboutFile = true) (sourceLine : d.sourceLine = none)
      (report : d.text = Text.join "\n"
        ((l.location.text ++ ": error: " ++ d.message) :: d.hintLines))

/-- The first place of a failure stays. -/
theorem Failure.locate_locate (f : Failure) (location location' : Location)
    (line line' : Option String) :
    (f.locate location line).locate location' line' = f.locate location line := by
  cases f with
  | fault | unfinished => rfl
  | error d =>
    cases hd : d.location <;> simp [Failure.locate, Diagnostic.locate, hd]

section Reports

variable {l : SourceLine} {f : Failure} {d : Diagnostic}

/-- **A report about a text shows the line at which it is placed.** -/
theorem excerpt_of_bare {line : String} (h : f.IsAt none false)
    (own : line = l.text ∨ line = l.content) (hd : f.locate l.location (some line) = .error d) :
    d.location = some l.location ∧ d.Excerpt l := by
  cases f with
  | unfinished => exact h.elim
  | fault => cases hd
  | error d₀ =>
    obtain ⟨-, hplace, -, hplain⟩ := h
    simp only [Failure.locate, Diagnostic.locate, hplace] at hd
    cases hd
    refine ⟨rfl, .shown hplain own rfl ?_⟩
    simp [Diagnostic.text, Diagnostic.sourceLines, Diagnostic.message, SourceLine.location,
      Location.ofLine, Diagnostic.hintLines]

/-- **A report about a file has its place before it is given the line**, so it shows no line. -/
theorem excerpt_of_file {line : Option String} (h : f.IsAt (some l.location) true)
    (hd : f.locate l.location line = .error d) :
    d.location = some l.location ∧ d.Excerpt l := by
  cases f with
  | unfinished => exact h.elim
  | fault => cases hd
  | error d₀ =>
    obtain ⟨-, hplace, hline, habout⟩ := h
    simp only [Failure.locate, Diagnostic.locate, hplace] at hd
    cases hd
    refine ⟨hplace, .hidden habout hline ?_⟩
    simp [Diagnostic.text, Diagnostic.sourceLines, hplace, hline]

end Reports

/-! ## Lines and commands that fail -/

/-- What the report of a line that fails shows: it is about the line, or about a line that was taken
for it. -/
theorem Layout.exists_excerpt_of_step {search : Search} {v : Visit} {e : Halt} {d : Diagnostic}
    (failed : step search v.line v.state = .error e) (report : e.failure = .error d) :
    ∃ l, (l = v.line ∨ v.Takes search l) ∧ d.location = some l.location ∧ d.Excerpt l := by
  obtain ⟨f, hf, he⟩ := (ends_step search v.line v.state).of_error failed
  rw [he] at report
  cases hf with
  | bare h => exact ⟨v.line, .inl rfl, excerpt_of_bare h (.inl rfl) report⟩
  | file h => exact ⟨v.line, .inl rfl, excerpt_of_file h report⟩
  | @array l f text opened breaks =>
    -- the line at which the array breaks has placed the failure already
    rw [Failure.locate_locate] at report
    have hbreaks : v.BreaksAt l f := ⟨text, opened, breaks⟩
    exact ⟨l, hbreaks.taken, excerpt_of_bare breaks.isAt (.inl rfl) report⟩

namespace Assembler

variable {a : Assembler} {fs : FileSystem} {src : Source} {visits : List Visit} {s : State}
  {d : Diagnostic}

/-- What the report of a command that fails shows: the content of the line that asked for it. -/
theorem FirstPass.exists_excerpt_of_ofLayout (first : FirstPass a fs src visits s)
    (failed : (Program.ofLayout ⟨s.placed.toList, s.symbols⟩).result = .error (.error d)) :
    ∃ v ∈ visits, d.location = some v.line.location ∧ d.Excerpt v.line := by
  obtain ⟨before, q, after, f, placed, -, -, hbare, report⟩ :=
    exists_of_ofLayout_eq_error first.sound failed
  have hq : q ∈ s.placed.toList := by simp [placed]
  obtain ⟨v, visited, hlocation, hsource⟩ := first.exists_visit_of_placed hq
  simp only [Placed.locate, hlocation, hsource] at report
  exact ⟨v, visited, excerpt_of_bare hbare (.inr rfl) report.symm⟩

/-- **Every report on a line shows the line, except for files that are not found or not readable.**
A report without a place is about reading the source or about a name that the assembler was given.
Every other report has the place of a line in a file that was read, and shows this line if it is
about a text; if it is about a file, it shows none. -/
theorem assemble_excerpt (h : (a.assemble fs src).result = .error (.error d)) :
    (d.location = none ∧ (src.read fs = .error (.error d) ∨
      ((defineAll a.defines.toList).exec .predefined).result = .error (.error d))) ∨
    ∃ visits s l file texts, FirstPass a fs src visits s ∧ Reads a fs src visits file texts ∧
      l.StandsIn file texts ∧ d.location = some (.ofLine file l.number) ∧ d.Excerpt l := by
  have hfails := assemble_eq_error_iff.mp h
  generalize hf : Failure.error d = f at hfails
  cases hfails with
  | read failed =>
    subst hf
    exact .inl ⟨((src.proper_read fs).of_error failed).2.1, .inl failed⟩
  | define _ failed =>
    subst hf
    exact .inl ⟨((proper_defineAll _ _).of_error failed).2.1, .inr failed⟩
  | endless => cases hf
  | line first next failed =>
    obtain ⟨l, taken, hlocation, hexcerpt⟩ := exists_excerpt_of_step failed hf.symm
    obtain ⟨file, texts, reads, stands⟩ := first.exists_reads_of_taken next taken
    rw [SourceLine.location, stands.file_eq] at hlocation
    exact .inr ⟨_, _, l, file, texts, first, reads, stands, hlocation, hexcerpt⟩
  | command first _ failed =>
    subst hf
    obtain ⟨v, visited, hlocation, hexcerpt⟩ := first.exists_excerpt_of_ofLayout failed
    obtain ⟨file, texts, reads, stands⟩ := first.exists_reads.2 v visited
    rw [SourceLine.location, stands.file_eq] at hlocation
    exact .inr ⟨_, _, v.line, file, texts, first, reads, stands, hlocation, hexcerpt⟩

/-- A symbol that is not defined, on a line with a comment: the content of the line is shown. -/
theorem assemble_excerpt_undefined :
    let src := Source.lines inputName ["NOP", "  .word enb # where it ends", "(end)"]
    let a := new [] .empty
    let files := FileSystem.empty []
    ∃ d, (a.assemble files src).result = .error (.error d) ∧
      d.text =
        "<input>:2: error: undefined symbol 'enb'\n    .word enb\nhint: did you mean 'end'?" ∧
      ((d.location = none ∧ (src.read files = .error (.error d) ∨
        ((defineAll a.defines.toList).exec .predefined).result = .error (.error d))) ∨
      ∃ visits s l file texts, FirstPass a files src visits s ∧
        Reads a files src visits file texts ∧ l.StandsIn file texts ∧
        d.location = some (.ofLine file l.number) ∧ d.Excerpt l) := by
  intro src a files
  have hfails : a.failureFor files src 4 = some (.error ⟨.undefinedSymbol "enb" ["end"],
      some (.ofLine inputName 2), some "did you mean 'end'?", some ".word enb"⟩) := by
    decide +kernel
  have hresult := assemble_eq_error_of_failureFor hfails
  exact ⟨_, hresult, by decide +kernel, assemble_excerpt hresult⟩

/-- A file that is not found: the report has a place, but does not show the line there. -/
theorem assemble_excerpt_missing :
    let src := Source.lines inputName [".include nope"]
    let a := new [] .empty
    let files := FileSystem.empty ["w"]
    ∃ d, (a.assemble files src).result = .error (.error d) ∧
      d.location = some (.ofLine inputName 1) ∧ d.sourceLine = none ∧
      d.text = "<input>:1: error: File not found: 'nope'" := by
  intro src a files
  have hfails : a.failureFor files src 1 = some (.error ⟨.missingFile "nope" [],
      some (.ofLine inputName 1), none, none⟩) := by decide +kernel
  exact ⟨_, assemble_eq_error_of_failureFor hfails, rfl, rfl, by decide +kernel⟩

end Assembler

end NibbleAsm
