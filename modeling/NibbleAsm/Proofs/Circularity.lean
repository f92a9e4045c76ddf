import NibbleAsm.Proofs.Pending
import NibbleAsm.Proofs.Place

/-!
# Circular inclusion

A line must not include a file that has led to it. Files are compared by their places, so it does
not matter how the name of a file is spelled. A file with the name of a pseudo-file is left out of
the comparison, and this is the only exception: such a file may include itself unnoticed.

## Main definitions

* `LedBy search visits l file`: the line `l` stands in the file, or in a file whose inclusion goes
  back to it

## Main results

* `FirstPass.mem_chain_iff`: the files that a line remembers are those that led to it
* `step_of_isOpen`: the failure of a line that asks for an open file
* `assemble_circular`: a line fails for asking for a file that has led to it, unless the file has
  the name of a pseudo-file
-/

namespace NibbleAsm

open Layout

/-! ## The files that led to a line -/

/-- A file has led to a line: the line stands in it, or another line that the file has led to
includes the file that the line stands in. -/
inductive LedBy (search : Search) (visits : List Visit) : SourceLine → String → Prop
  | own (l : SourceLine) : LedBy search visits l l.file
  | through {v : Visit} {l : SourceLine} {file : String} (visited : v ∈ visits)
      (splices : v.line.Splices search l) (led : LedBy search visits v.line file) :
      LedBy search visits l file

namespace Assembler

variable {a : Assembler} {fs : FileSystem} {src : Source} {visits : List Visit} {s : State}
  {l : SourceLine} {file : String}

/-- A line remembers the file that it stands in. -/
theorem FirstPass.file_mem_chain (first : FirstPass a fs src visits s) :
    (∀ l ∈ s.cursor.pending, l.file ∈ l.chain) ∧ ∀ v ∈ visits, v.line.file ∈ v.line.chain := by
  apply first.forall_lines
  · intro top texts _ l hl
    obtain ⟨i, hi, rfl⟩ := mem_numberLines.mp hl
    simp
  · intro v _ l splices _
    simp [splices.chain_eq]

/-- **The files that a line remembers are those that led to it.** -/
theorem FirstPass.mem_chain_iff (first : FirstPass a fs src visits s)
    (hl : l ∈ s.cursor.pending) :
    file ∈ l.chain ↔ LedBy ⟨fs, a.directories⟩ visits l file := by
  obtain ⟨hpending, hvisits⟩ := first.file_mem_chain
  constructor
  · have hled : (∀ l ∈ s.cursor.pending, ∀ file ∈ l.chain,
        LedBy ⟨fs, a.directories⟩ visits l file) ∧
        ∀ v ∈ visits, ∀ file ∈ v.line.chain, LedBy ⟨fs, a.directories⟩ visits v.line file := by
      apply first.forall_lines
      · intro top texts _ l hl file hfile
        obtain ⟨i, hi, rfl⟩ := mem_numberLines.mp hl
        rw [List.mem_singleton.mp hfile]
        exact .own _
      · intro v hv l splices hline file hfile
        rw [splices.chain_eq, List.mem_append, List.mem_singleton] at hfile
        rcases hfile with hfile | rfl
        · exact .through hv splices (hline file hfile)
        · exact .own l
    exact hled.1 l hl file
  · intro led
    have hown := hpending l hl
    clear hl
    induction led with
    | own => exact hown
    | @through v l file visited splices _ ih =>
      rw [splices.chain_eq]
      exact List.mem_append_left _ (ih (hvisits v visited))

end Assembler

/-! ## Lines that ask for a file -/

theorem FileSystem.not_mem_of_read {fs : FileSystem} {name : String} {bytes : List UInt8}
    (h : fs.read name = .ok bytes) : '\x00' ∉ name.toList := by
  unfold FileSystem.read at h
  split at h
  · next hentry => exact (FileSystem.entry_eq_ok hentry).1
  · cases h
  · cases h

/-- A file that can be read as a source has a name that every access accepts. -/
theorem Search.not_mem_of_readLines {fs : FileSystem} {path : FilePath}
    {location : Option Location} {texts : List String}
    (h : Search.readLines fs path location = .ok texts) : '\x00' ∉ path.text.toList := by
  obtain ⟨bytes, hread⟩ := (proper_readLines _ _ _).of_ok h
  exact FileSystem.not_mem_of_read hread

/-- If every access accepts the names that a line remembers, a file is open when one of these has
its place. -/
theorem Search.isOpen_eq_ok (fs : FileSystem) {line : SourceLine} (path : FilePath)
    (named : ∀ name ∈ line.chain, '\x00' ∉ name.toList) :
    ∃ isOpen, Search.isOpen fs line path = .ok isOpen ∧ (isOpen = true ↔
      ∃ name ∈ line.chain, isPseudoFile name = false ∧ fs.place name = fs.canonical path) := by
  have hnull : (Search.openFiles line).find? (fun name => name.toList.contains '\x00') = none := by
    rw [List.find?_eq_none]
    intro name hname
    simpa using named name (List.mem_of_mem_filter hname)
  refine ⟨_, by rw [Search.isOpen, hnull], ?_⟩
  simp [Search.openFiles, FileSystem.place]

namespace Layout

variable {search : Search} {line : SourceLine} {name : String} {path : FilePath} {s : State}

/-- **A line that asks for an open file fails**, and its failure says so at the line. -/
theorem step_of_isOpen (asks : line.Asks search name path)
    (isOpen : Search.isOpen search.files line path = .ok true) :
    step search line s = .error ⟨.error ⟨.circularInclude (unquote name), line.location, none,
      line.text⟩, s.log.push (.resolved (unquote name) path.text)⟩ := by
  have hname : Directive.ofName? line.keyword = some .includeFile := by
    rw [asks.keyword]
    decide +kernel
  have hone : oneOperand ".include" line.operandText = .ok name := by
    rw [oneOperand, asks.named]
  have hdirective : directive search line .includeFile line.operandText s =
      .error ⟨.ofCause (.circularInclude (unquote name)),
        s.log.push (.resolved (unquote name) path.text)⟩ := by
    unfold directive
    dsimp only
    refine bind_eq_error.mpr (.inr ⟨name, mapError_eq_ok.mpr hone, ?_⟩)
    refine bind_eq_error.mpr (.inr ⟨path, mapError_eq_ok.mpr asks.found, ?_⟩)
    exact bind_eq_error.mpr (.inr ⟨true, mapError_eq_ok.mpr isOpen, rfl⟩)
  rw [step_of_named hname, hdirective]
  rfl

end Layout

namespace Assembler

variable {a : Assembler} {fs : FileSystem} {top : FilePath} {visits : List Visit} {s : State}
  {v : Visit} {name : String} {path : FilePath}

/-- Every file that leads to a line of a source file has a name that every access accepts. -/
theorem FirstPass.not_mem_of_mem_chain (first : FirstPass a fs (.file top) visits s) :
    ∀ l ∈ s.cursor.pending, ∀ name ∈ l.chain, '\x00' ∉ name.toList := by
  refine (first.forall_lines ?_ ?_).1
  · intro file texts read l hl name hname
    obtain ⟨rfl, hread⟩ := Source.read_file_eq_ok read
    obtain ⟨i, hi, rfl⟩ := mem_numberLines.mp hl
    rw [List.mem_singleton.mp hname]
    exact Search.not_mem_of_readLines hread
  · rintro v _ l ⟨path, texts, includes, hl⟩ hline name hname
    obtain ⟨i, hi, rfl⟩ := mem_numberLines.mp hl
    rcases List.mem_append.mp hname with hname | hname
    · exact hline name hname
    · rw [List.mem_singleton.mp hname]
      exact Search.not_mem_of_readLines includes.read

/-- **A line that asks for a file fails exactly if the file has led to it**, under a name that is
not that of a pseudo-file: then the assembly ends with this failure, at the line. Otherwise the
lines of the file come next, if it can be read. -/
theorem assemble_circular (first : FirstPass a fs (.file top) visits s)
    (next : s.next? = some v) (asks : v.line.Asks ⟨fs, a.directories⟩ name path) :
    ((∃ file, LedBy ⟨fs, a.directories⟩ visits v.line file ∧ isPseudoFile file = false ∧
        fs.place file = fs.canonical path) →
      (a.assemble fs (.file top)).result = .error (.error ⟨.circularInclude (unquote name),
        v.line.location, none, v.line.text⟩)) ∧
    ((∀ file, LedBy ⟨fs, a.directories⟩ visits v.line file → fs.place file = fs.canonical path →
        isPseudoFile file = true) →
      ∀ texts, Search.readLines fs path v.line.location = .ok texts →
        ∃ t, step ⟨fs, a.directories⟩ v.line v.state = .ok t ∧ t.cursor.pending =
          numberLines path.text v.line.chain texts ++ v.state.cursor.pending) := by
  have hmem : v.line ∈ s.cursor.pending := by
    rw [(State.pending_of_next? next).1]
    exact List.mem_cons_self
  obtain ⟨isOpen, hopen, hiff⟩ :=
    Search.isOpen_eq_ok fs path (first.not_mem_of_mem_chain v.line hmem)
  constructor
  · rintro ⟨file, led, hplain, hplace⟩
    have htrue := hiff.mpr ⟨file, (first.mem_chain_iff hmem).mpr led, hplain, hplace⟩
    rw [htrue] at hopen
    exact assemble_eq_error_iff.mpr (.line first next (step_of_isOpen asks hopen))
  · intro hpseudo texts hread
    have hfalse : isOpen = false := by
      rw [← Bool.not_eq_true, hiff]
      rintro ⟨file, hfile, hplain, hplace⟩
      have htrue := hpseudo file ((first.mem_chain_iff hmem).mp hfile) hplace
      exact Bool.false_ne_true (hplain.symm.trans htrue)
    rw [hfalse] at hopen
    have hwithin := (first.sound.of_next? next).within
    obtain ⟨log, hstep⟩ := step_include ⟨asks.keyword, ⟨name, asks.named, asks.found⟩, hopen, hread⟩
      hwithin
    exact ⟨_, hstep, rfl⟩

/-- A file that is asked for under another spelling of its name, from a file that it includes. -/
theorem assemble_circular_spelled :
    let files := (((FileSystem.empty ["w"]).set ["w", "d"] .directory).set ["w", "a"]
      (.file (textBytes ".include d/b"))).set
      ["w", "d", "b"] (.file (textBytes ".include ../a"))
    let a := new [] .empty
    let top : FilePath := .ofString "a"
    ∃ visits s v, FirstPass a files (.file top) visits s ∧ s.next? = some v ∧
      v.line = ⟨"d/b", 1, ".include ../a", ["a", "d/b"]⟩ ∧
      v.line.Asks ⟨files, a.directories⟩ "../a" (.ofString "d/../a") ∧
      LedBy ⟨files, a.directories⟩ visits v.line "a" ∧
      (a.assemble files (.file top)).result = .error (.error ⟨.circularInclude "../a",
        some (.ofLine "d/b" 1), none, some ".include ../a"⟩) := by
  intro files a top
  have hreach : (a.reach files (.file top) 1).map (fun p => p.2.next?.map Visit.line) =
      some (some ⟨"d/b", 1, ".include ../a", ["a", "d/b"]⟩) := by decide +kernel
  obtain ⟨⟨visits, s⟩, hs, hnext⟩ := Option.map_eq_some_iff.mp hreach
  obtain ⟨v, next, hline⟩ := Option.map_eq_some_iff.mp hnext
  have first := firstPass_of_reach hs
  have asks : v.line.Asks ⟨files, a.directories⟩ "../a" (.ofString "d/../a") := by
    rw [hline]
    exact ⟨by decide +kernel, by decide +kernel, by decide +kernel⟩
  have led : LedBy ⟨files, a.directories⟩ visits v.line "a" := by
    apply (first.mem_chain_iff ?_).mp
    · simp [hline]
    · rw [(State.pending_of_next? next).1]
      exact List.mem_cons_self
  have hplace : files.place "a" = files.canonical (.ofString "d/../a") := by decide +kernel
  have hresult := (assemble_circular first next asks).1 ⟨"a", led, by decide +kernel, hplace⟩
  rw [hline] at hresult
  exact ⟨visits, s, v, first, next, hline, asks, led, hresult⟩

/-- A file with the name of a pseudo-file that asks for itself: the line does not fail, and the
assembly ends when the lines of the file have filled the address space. -/
theorem assemble_circular_unnoticed :
    let files := (FileSystem.empty ["w"]).set ["w", "<a>"]
      (.file (textBytes ".fill-array 40000 0\n.include <a>\n"))
    let a := new [] .empty
    let top : FilePath := .ofString "<a>"
    ∃ visits s v, FirstPass a files (.file top) visits s ∧ s.next? = some v ∧
      v.line.Asks ⟨files, a.directories⟩ "<a>" top ∧
      LedBy ⟨files, a.directories⟩ visits v.line "<a>" ∧
      files.place "<a>" = files.canonical top ∧
      (a.assemble files (.file top)).result = .error (.error ⟨.programTooLarge 80000,
        some (.ofLine "<a>" 1), none, some ".fill-array 40000 0"⟩) := by
  intro files a top
  have hreach : (a.reach files (.file top) 1).map (fun p => p.2.next?.map Visit.line) =
      some (some ⟨"<a>", 2, ".include <a>", ["<a>"]⟩) := by decide +kernel
  have hfails : a.failureFor files (.file top) 3 = some (.error ⟨.programTooLarge 80000,
      some (.ofLine "<a>" 1), none, some ".fill-array 40000 0"⟩) := by decide +kernel
  obtain ⟨⟨visits, s⟩, hs, hnext⟩ := Option.map_eq_some_iff.mp hreach
  obtain ⟨v, next, hline⟩ := Option.map_eq_some_iff.mp hnext
  refine ⟨visits, s, v, firstPass_of_reach hs, next, ?_, ?_, by decide +kernel,
    assemble_eq_error_of_failureFor hfails⟩
  · rw [hline]
    exact ⟨by decide +kernel, by decide +kernel, by decide +kernel⟩
  · rw [hline]
    exact .own _

end Assembler

end NibbleAsm
