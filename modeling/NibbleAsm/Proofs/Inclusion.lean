import NibbleAsm.Proofs.Coherence
import NibbleAsm.Proofs.Likeness

/-!
# Inclusion is inlining

A line that includes a file puts the lines of the file in its place. If these name no further file,
it makes no difference where they come from: the source with the file's lines written out has the
same words and symbols, or fails in the same way. Only the places of commands and failures differ,
and the line itself leaves a command without words.

## Main definitions

* `Row.Alike`: rows that are equal but for their places
* `Program.Inlines`: programs that are equal but for their places and one row without words

## Main results

* `step_include`: the effect of a line that includes a file
* `follows_ofLayout`: commands that are alike have programs that are alike
* `assemble_include`: an assembly does not tell an included file from its lines
-/

namespace NibbleAsm

open Layout

variable {excused : Prop}

/-! ## Rows -/

/-- Rows that are equal but for their places in the source. -/
structure Row.Alike (q r : Row) : Prop where
  address : q.address = r.address
  words : q.words = r.words
  source : q.source = r.source

/-- Programs with the same words and symbols, and the same rows but for their places; only the first
has a row for a line, without words. -/
structure Program.Inlines (line : SourceLine) (p q : Program) : Prop where
  words : p.words = q.words
  symbols : p.symbols = q.symbols
  rows : ∃ before after before' after' row, p.rows = before ++ row :: after ∧
    q.rows = before' ++ after' ∧ List.Forall₂ Row.Alike before before' ∧
    List.Forall₂ Row.Alike after after' ∧
    row.words = [] ∧ row.location = some line.location ∧ row.source = line.content

theorem flatMap_words_congr {rows rows' : List Row} (h : List.Forall₂ Row.Alike rows rows') :
    rows.flatMap Row.words = rows'.flatMap Row.words := by
  induction h with
  | nil => rfl
  | cons hrow _ ih => rw [List.flatMap_cons, List.flatMap_cons, hrow.words, ih]

theorem Placed.alike_locate (q : Placed) (f : Failure) : (q.locate f).Alike f := by
  unfold Placed.locate
  split
  · exact .located _ _ _
  · exact .refl f

theorem follows_row {q r : Placed} (h : q.Alike r) (scope : Scope) :
    Follows excused Failure.Alike Row.Alike (q.row scope) (r.row scope) := by
  obtain ⟨title, command, size, address, location, source⟩ := q
  obtain ⟨title', command', size', address', location', source'⟩ := r
  obtain ⟨rfl, rfl, rfl, rfl, rfl⟩ := h
  unfold Placed.row
  dsimp only
  split
  · next f _ => exact .error ((Placed.alike_locate _ f).trans (Placed.alike_locate _ f).symm)
  · split
    · exact .ok ⟨rfl, rfl, rfl⟩
    · exact follows_failAt _ _ _

theorem Placed.row_nothing (scope : Scope) (line : SourceLine) (n : Nat) :
    (Placed.ofLine line .nothing n).row scope = .ok ⟨n, [], line.location, line.content⟩ := by
  refine Placed.row_eq_ok_iff.mpr ⟨[], ?_, ?_, ?_⟩
  · rfl
  · rfl
  · simp only [Placed.ofLine]

/-- **Commands that are alike have programs that are alike**, up to a command without words in the
first. -/
theorem follows_ofLayout {line : SourceLine} {n : Nat} {before after before' after' : List Placed}
    {t u : SymbolTable} (htable : t.values = u.values)
    (hbefore : List.Forall₂ Placed.Alike before before')
    (hafter : List.Forall₂ Placed.Alike after after') :
    Follows excused Failure.Alike (Program.Inlines line)
      (Program.ofLayout ⟨before ++ .ofLine line .nothing n :: after, t⟩).result
      (Program.ofLayout ⟨before' ++ after', u⟩).result := by
  have hrow := Placed.row_nothing t.lookup line n
  -- the rows are found command by command, and the one in the middle is known
  simp only [Program.ofLayout, Traced.bind_result, Traced.ofExcept_result, Traced.notes_result,
    Traced.pure_result, List.mapM_append, List.mapM_cons, hrow, bind_assoc, pure_bind]
  rw [← SymbolTable.lookup_congr htable]
  refine (Follows.mapM hbefore fun q r h => follows_row h _).bind fun rows rows' hrows => ?_
  refine (Follows.mapM hafter fun q r h => follows_row h _).bind fun more more' hmore => ?_
  refine .ok ⟨?_, htable, rows, more, rows', more', ⟨n, [], line.location, line.content⟩, rfl, rfl,
    hrows, hmore, by simp only [and_self]⟩
  simp only [List.flatMap_append, List.flatMap_cons, flatMap_words_congr hrows,
    flatMap_words_congr hmore, List.nil_append]

/-! ## The line that includes a file -/

/-- A line includes a file: it names one that is found, is not open yet and can be read. -/
structure SourceLine.Includes (search : Search) (line : SourceLine) (path : FilePath)
    (texts : List String) : Prop where
  keyword : line.keyword = ".include"
  named : ∃ name, Text.words line.operandText = [name] ∧
    search.find (unquote name) line.location = .ok path
  closed : Search.isOpen search.files line path = .ok false
  read : Search.readLines search.files path line.location = .ok texts

namespace Layout

variable {search : Search} {line : SourceLine} {path : FilePath} {texts : List String} {s : State}

/-- A line that includes a file places a command without words and puts the lines of the file in
front. -/
theorem step_include (h : line.Includes search path texts) (within : s.index ≤ addressSpace) :
    ∃ log, step search line s = .ok { s with
      cursor := s.cursor.splice path.text texts line
      placed := s.placed.push (.ofLine line .nothing s.index)
      log := log } := by
  obtain ⟨name, hwords, hfind⟩ := h.named
  have hone : oneOperand ".include" line.operandText = .ok name := by
    rw [oneOperand, hwords]
  have directed : Directed search line line.operandText s .includeFile .nothing
      { s with cursor := s.cursor.splice path.text texts line, log := s.log } :=
    .includeFile hone hfind h.closed h.read
  exact directed.exists_step (by rw [h.keyword]; decide +kernel) within

end Layout

/-! ## Numbered lines -/

/-- Lines of a file, numbered behind the first `n` lines. -/
def numberedFrom (file : String) (chain : List String) (n : Nat) (texts : List String) :
    List SourceLine :=
  texts.mapIdx fun i text => ⟨file, i + n + 1, Text.chomp text, chain⟩

section Numbered

variable {file file' : String} {chain chain' texts : List String}

theorem numberLines_eq (file : String) (chain texts : List String) :
    numberLines file chain texts = numberedFrom file (chain ++ [file]) 0 texts := rfl

theorem numberedFrom_cons (file : String) (chain : List String) (n : Nat) (text : String)
    (texts : List String) :
    numberedFrom file chain n (text :: texts) =
      ⟨file, n + 1, Text.chomp text, chain⟩ :: numberedFrom file chain (n + 1) texts := by
  simp only [numberedFrom, List.mapIdx_cons, Nat.zero_add, Nat.add_assoc, Nat.add_comm 1]

theorem numberedFrom_append (file : String) (chain : List String) (n : Nat) (xs ys : List String) :
    numberedFrom file chain n (xs ++ ys) =
      numberedFrom file chain n xs ++ numberedFrom file chain (xs.length + n) ys := by
  simp only [numberedFrom, List.mapIdx_append, Nat.add_assoc]

theorem exists_mem_numberLines {text : String} (file : String) (chain : List String)
    (h : text ∈ texts) :
    ∃ i, ⟨file, i, Text.chomp text, chain ++ [file]⟩ ∈ numberLines file chain texts := by
  obtain ⟨i, hi, rfl⟩ := List.mem_iff_getElem.mp h
  exact ⟨i + 1, List.mem_mapIdx.mpr ⟨i, hi, rfl⟩⟩

/-- Lines with the same texts are alike, if they are so whatever their numbers are. -/
theorem linesAlike_numberedFrom {extra ls ms : List SourceLine} (rest : LinesAlike extra ls ms)
    (h : ∀ text ∈ texts, ∀ i j, SourceLine.Alike ⟨file, i, Text.chomp text, chain⟩
      ⟨file', j, Text.chomp text, chain'⟩) (n n' : Nat) :
    LinesAlike extra (numberedFrom file chain n texts ++ ls)
      (numberedFrom file' chain' n' texts ++ ms) := by
  induction texts generalizing n n' with
  | nil => exact rest
  | cons text texts ih =>
    obtain ⟨hfirst, hrest⟩ := List.forall_mem_cons.mp h
    rw [numberedFrom_cons, numberedFrom_cons]
    exact .cons (hfirst _ _) (ih hrest _ _)

/-- The lines of a file that names no further file are alike in any place, and so are the lines
behind them. -/
theorem linesAlike_inlined {name : String} {Q : List String}
    (plain : ∀ l ∈ numberLines name [file] Q, l.keyword ≠ ".include" ∧ l.keyword ≠ ".copy")
    (S : List String) (n n' : Nat) :
    LinesAlike [] (numberLines name [file] Q ++ numberedFrom file [file] n S)
      (numberedFrom file [file] n' (Q ++ S)) := by
  have hbehind : LinesAlike [] (numberedFrom file [file] n S ++ [])
      (numberedFrom file [file] (Q.length + n') S ++ []) :=
    linesAlike_numberedFrom .nil (fun text _ i j => ⟨rfl, .inl ⟨rfl, rfl⟩⟩) _ _
  rw [List.append_nil, List.append_nil] at hbehind
  -- the lines of the file change their file and chain, so it matters that they name no file
  rw [numberLines_eq, numberedFrom_append]
  refine linesAlike_numberedFrom hbehind (fun text htext i j => ?_) _ _
  obtain ⟨k, hk⟩ := exists_mem_numberLines name [file] htext
  have hkeyword := plain _ hk
  exact ⟨rfl, .inr hkeyword⟩

/-- The cursor at the start of a source. -/
theorem splice_empty (file : String) (texts : List String) :
    Cursor.empty.splice file texts none = ⟨numberedFrom file [file] 0 texts, 0⟩ := by
  change Cursor.mk (numberLines file [] texts ++ []) 0 = _
  rw [List.append_nil]
  rfl

end Numbered

/-! ## Two runs -/

theorem Placed.Alike.common {q r r' : Placed} (h : q.Alike r) (h' : q.Alike r') : r.Alike r' :=
  ⟨h.title.symm.trans h'.title, h.command.symm.trans h'.command, h.size.symm.trans h'.size,
    h.address.symm.trans h'.address, h.source.symm.trans h'.source⟩

theorem forall₂_common {qs rs rs' : List Placed} (h : List.Forall₂ Placed.Alike qs rs)
    (h' : List.Forall₂ Placed.Alike qs rs') : List.Forall₂ Placed.Alike rs rs' := by
  induction h generalizing rs' with
  | nil =>
    cases h'
    exact .nil
  | cons hq _ ih =>
    cases h' with
    | cons hq' hrest => exact .cons (hq.common hq') (ih hrest)

namespace Layout

variable {search : Search} {symbols : SymbolTable} {file : String} {P Q S : List String}
  {s : State} {visits : List Visit}

/-- A trace that uses up its lines goes through with further lines behind, and leaves them. -/
theorem Trace.exists_behind {lines : List SourceLine}
    (trace : Trace search (.start ⟨lines, 0⟩ symbols) visits s) (done : s.cursor.pending = [])
    (extra : List SourceLine) :
    ∃ visits' t, Trace search (.start ⟨lines ++ extra, 0⟩ symbols) visits' t ∧
      t.cursor.pending = extra ∧ s.symbols.values = t.symbols.values ∧ s.index = t.index ∧
      List.Forall₂ Placed.Alike s.placed.toList t.placed.toList := by
  have hstart : (State.start ⟨lines, 0⟩ symbols).Alike extra [] []
      (State.start ⟨lines ++ extra, 0⟩ symbols) :=
    ⟨.append_self lines extra, rfl, rfl, [], [], rfl, rfl, .nil⟩
  obtain ⟨visits', t, htrace, h⟩ := trace.follows hstart
  obtain ⟨qs, rs, hqs, hrs, hplaced⟩ := h.placed
  have hpending := h.pending
  rw [done] at hpending
  refine ⟨visits', t, htrace, ?_, h.values, h.index, ?_⟩
  · generalize t.cursor.pending = lines' at hpending
    cases hpending
    rfl
  · rw [hqs, hrs]
    exact hplaced

/-- **A source that includes a file and the source with the file's lines have runs that
correspond.** -/
theorem run_include {line : SourceLine} {path : FilePath}
    (trace : Trace search (.start ⟨numberedFrom file [file] 0 P, 0⟩ symbols) visits s)
    (done : s.cursor.pending = []) (within : s.index ≤ addressSpace)
    (includes : line.Includes search path Q) (chain : line.chain = [file])
    (plain : ∀ l ∈ numberLines path.text [file] Q, l.keyword ≠ ".include" ∧ l.keyword ≠ ".copy")
    (n n' : Nat) :
    ∃ before before' index, List.Forall₂ Placed.Alike before before' ∧
      Option.Rel (OutcomeRel Halt.Alike
        (State.Alike [] (before ++ [.ofLine line .nothing index]) before'))
        ((State.start ⟨numberedFrom file [file] 0 P ++ line :: numberedFrom file [file] n S, 0⟩
          symbols).run search)
        ((State.start ⟨numberedFrom file [file] 0 P ++ numberedFrom file [file] n' (Q ++ S), 0⟩
          symbols).run search) := by
  -- both runs handle the lines `P` alike, since each has further lines behind them
  obtain ⟨vs, t, htrace, hpending, hvalues, hindex, hplaced⟩ :=
    trace.exists_behind done (line :: numberedFrom file [file] n S)
  obtain ⟨vs', u, htrace', hpending', hvalues', hindex', hplaced'⟩ :=
    trace.exists_behind done (numberedFrom file [file] n' (Q ++ S))
  -- then the first run handles one line more, behind which the lines left are alike
  have hnext := State.next?_of_pending hpending
  obtain ⟨log, hstep⟩ := step_include includes
    (s := { t with cursor := ⟨numberedFrom file [file] n S, t.cursor.taken + 1⟩ })
    (show t.index ≤ addressSpace from hindex ▸ within)
  rw [htrace.run_eq, htrace'.run_eq, run_of_step_ok hnext hstep]
  refine ⟨t.placed.toList, u.placed.toList, t.index, forall₂_common hplaced hplaced',
    run_rel lockstep_alike ⟨?_, hvalues.symm.trans hvalues', hindex.symm.trans hindex', [], [],
      ?_, ?_, .nil⟩⟩
  · change LinesAlike [] (numberLines path.text line.chain Q ++ numberedFrom file [file] n S) _
    rw [hpending', chain]
    exact linesAlike_inlined plain S n n'
  · exact (Array.toList_push ..).trans (List.append_nil _).symm
  · exact (List.append_nil _).symm

/-- Layouts of runs that correspond. -/
theorem build_rel {c c' : Cursor} {symbols' : SymbolTable} {E : Failure → Failure → Prop}
    {R : State → State → Prop} (unfinished : E .unfinished .unfinished)
    (h : Option.Rel (OutcomeRel (fun e e' => E e.failure e'.failure) R)
      ((State.start c symbols).run search) ((State.start c' symbols').run search)) :
    Follows False E (fun k k' => ∃ s t, R s t ∧ k = ⟨s.placed.toList, s.symbols⟩ ∧
      k' = ⟨t.placed.toList, t.symbols⟩) (build search c symbols).result
      (build search c' symbols').result := by
  unfold build
  generalize (State.start c symbols).run search = x at h
  generalize (State.start c' symbols').run search = y at h
  cases h with
  | none => exact .error unfinished
  | some h =>
    cases h with
    | ok h => exact .ok ⟨_, _, h, rfl, rfl⟩
    | error h => exact .error h

/-- Layouts of runs that are alike. -/
theorem follows_build {c c' : Cursor} {symbols' : SymbolTable} {R : State → State → Prop}
    (h : Option.Rel (OutcomeRel Halt.Alike R) ((State.start c symbols).run search)
      ((State.start c' symbols').run search)) :
    Follows False Failure.Alike (fun k k' => ∃ s t, R s t ∧ k = ⟨s.placed.toList, s.symbols⟩ ∧
      k' = ⟨t.placed.toList, t.symbols⟩) (build search c symbols).result
      (build search c' symbols').result :=
  build_rel .unfinished h

end Layout

namespace Assembler

variable {a : Assembler} {fs : FileSystem} {src : Source} {file inc : String} {path : FilePath}
  {P Q S : List String} {visits : List Visit} {s : State}

/-- **Inclusion is inlining.** Let a source have a line that includes a file behind lines `P` that a
first pass handles alone, and let no line of the file name a further file. Then the source is
assembled like the source with the file's lines in place of the line: both succeed, with the same
words and symbols and the same rows but for their places and one row without words; or both fail,
with the same cause and hint. -/
theorem assemble_include (read : src.read fs = .ok (file, P ++ inc :: S))
    (first : FirstPass a fs (.lines file P) visits s) (done : s.cursor.pending = [])
    (includes : SourceLine.Includes ⟨fs, a.directories⟩
      ⟨file, P.length + 1, Text.chomp inc, [file]⟩ path Q)
    (plain : ∀ l ∈ numberLines path.text [file] Q,
      l.keyword ≠ ".include" ∧ l.keyword ≠ ".copy") :
    OutcomeRel Failure.Alike (Program.Inlines ⟨file, P.length + 1, Text.chomp inc, [file]⟩)
      (a.assemble fs src).result (a.assemble fs (.lines file (P ++ Q ++ S))).result := by
  have within := first.sound.within
  obtain ⟨hread, defined, trace⟩ := first
  cases hread
  rw [splice_empty] at trace
  obtain ⟨before, before', index, hbefore, hrun⟩ :=
    run_include (S := S) trace done within includes rfl plain (P.length + 1) P.length
  rw [assemble_result, assemble_result, read]
  change OutcomeRel _ _ (a.assembleLines fs file (P ++ inc :: S)).result
    (a.assembleLines fs file (P ++ Q ++ S)).result
  rw [assembleLines_result, assembleLines_result, defined, splice_empty, splice_empty,
    List.append_assoc, numberedFrom_append, numberedFrom_append, numberedFrom_cons]
  -- the commands before the line, its own one and those behind it go to the second pass
  refine ((follows_build hrun).bind fun k k' hk => ?_).outcomeRel not_false
  obtain ⟨t, u, halike, rfl, rfl⟩ := hk
  obtain ⟨qs, rs, hqs, hrs, hqr⟩ := halike.placed
  rw [hqs, hrs, List.append_assoc]
  exact follows_ofLayout halike.values hbefore hqr

/-- A file that opens an array, which is closed behind the line that includes the file. -/
theorem assemble_include_array :
    let files := (FileSystem.empty ["w"]).set ["w", "t"]
      (.file [0x2E, 0x61, 0x72, 0x72, 0x61, 0x79, 0x20, 0x5B, 0x31])
    let line : SourceLine := ⟨inputName, ["(a)"].length + 1, Text.chomp ".include t", [inputName]⟩
    let a := new [] .empty
    ∃ p q, (a.assemble files (.lines inputName ["(a)", ".include t", "a]"])).result = .ok p ∧
      (a.assemble files (.lines inputName ["(a)", ".array [1", "a]"])).result = .ok q ∧
      q.words = [1, 0] ∧ p.Inlines line q := by
  intro files line a
  have hlabel : (a.layOutFor files 2 inputName ["(a)"]).isSome = true := by decide +kernel
  have hinlined : (a.assembleFor files 3 inputName ["(a)", ".array [1", "a]"]).map Program.words =
      some [1, 0] := by decide +kernel
  obtain ⟨s, hs⟩ := Option.isSome_iff_exists.mp hlabel
  obtain ⟨visits, first, done⟩ := exists_firstPass_of_layOutFor hs
  obtain ⟨q, hq, hwords⟩ := Option.map_eq_some_iff.mp hinlined
  have hok := assemble_eq_ok_of_assembleFor hq
  have includes : line.Includes ⟨files, a.directories⟩ (.ofString "t") [".array [1"] := by
    refine ⟨by decide +kernel, ⟨"t", by decide +kernel, by decide +kernel⟩, by decide +kernel,
      by decide +kernel⟩
  have read : (Source.lines inputName ["(a)", ".include t", "a]"]).read files =
      .ok (inputName, ["(a)"] ++ ".include t" :: ["a]"]) := rfl
  have hlines : ["(a)"] ++ [".array [1"] ++ ["a]"] = ["(a)", ".array [1", "a]"] := rfl
  have h := assemble_include read first done includes (by decide +kernel)
  -- the second program was found by evaluation, so the first exists as well
  rw [hlines, hok] at h
  generalize (a.assemble files (.lines inputName ["(a)", ".include t", "a]"])).result = x at h ⊢
  cases h with
  | ok h => exact ⟨_, q, rfl, hok, hwords, h⟩

end Assembler

end NibbleAsm
