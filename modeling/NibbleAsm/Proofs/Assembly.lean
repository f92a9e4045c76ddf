import NibbleAsm.Assembler
import NibbleAsm.Proofs.Definitions

/-!
# The two passes of an assembly

An assembly reads its source, binds the names it was given, lays out the lines and then finds the
words of the placed commands. This module takes it apart: a first pass is a trace from the lines of
the source, and a second pass is a row for each placed command, found with the finished table.

## Main definitions

* `Source.read`: the file name and the lines of a source
* `Assembler.FirstPass`: the lines that a first pass has handled, and the state it has reached
* `SecondPass`: the program of a finished state
* `Assembler.FailsWith`: how an assembly comes to fail
* `Assembler.layOutFor`, `Assembler.assembleFor`: the passes over lines that a bounded number of
  steps lays out
* `Assembler.reach`, `Assembler.failureFor`: the first lines of a first pass, and the failure that
  a bounded number of steps leads to

## Main results

* `Assembler.assemble_result`: an assembly is reading, defining, laying out and finding words
* `Assembler.FirstPass.assemble_eq`: an assembly ends as the rest of its first pass does
* `Placed.row_eq_ok_iff`, `secondPass_iff`: the rows of a program
* `Assembler.assemble_eq_ok`: two passes that succeed make a program
* `Assembler.assemble_eq_error_iff`: an assembly fails where one of its parts does
-/

namespace NibbleAsm

open Layout

/-- The file name and the lines of a source. -/
def Source.read (fs : FileSystem) : Source → Except Failure (String × List String)
  | .lines name texts => .ok (name, texts)
  | .text name whole => .ok (name, Text.lines whole)
  | .file path => (Search.readLines fs path none).map (path.text, ·)

theorem Source.read_file_eq_ok {fs : FileSystem} {path : FilePath} {file : String}
    {texts : List String} (h : (Source.file path).read fs = .ok (file, texts)) :
    file = path.text ∧ Search.readLines fs path none = .ok texts := by
  unfold Source.read at h
  cases hread : Search.readLines fs path none with
  | error f => simp [hread, Except.map] at h
  | ok lines =>
    simp only [hread, Except.map, Except.ok.injEq, Prod.mk.injEq] at h
    exact ⟨h.1.symm, congrArg Except.ok h.2⟩

theorem Source.proper_read (fs : FileSystem) (src : Source) :
    ProperAt none (fun _ => True) (src.read fs) := by
  cases src with
  | lines | text => exact .ok trivial
  | file path => exact (proper_readLines fs path none).map fun _ _ => trivial

/-! ## The second pass -/

theorem Placed.row_eq_ok_iff {scope : Scope} {q : Placed} {r : Row} :
    q.row scope = .ok r ↔
      ∃ words, q.command.words scope = .ok words ∧ (words.length : Int) = q.size ∧
        r = ⟨q.address, words, q.location, q.source⟩ := by
  unfold Placed.row
  cases q.command.words scope with
  | error f => simp
  | ok words =>
    dsimp only
    split
    · next hsize => simp [hsize, eq_comm]
    · next hsize => simp [hsize, failAt]

/-- The program of a finished state: each placed command has its row, and the table has the
values. -/
structure SecondPass (s : State) (p : Program) : Prop where
  rows : List.Forall₂ (fun q r => q.row s.symbols.lookup = .ok r) s.placed.toList p.rows
  words : p.words = p.rows.flatMap Row.words
  symbols : p.symbols = s.symbols.values

theorem secondPass_iff {s : State} {p : Program} :
    (Program.ofLayout ⟨s.placed.toList, s.symbols⟩).result = .ok p ↔ SecondPass s p := by
  simp only [Program.ofLayout, Traced.bind_result, Traced.ofExcept_result, Traced.notes_result,
    Traced.pure_result]
  rw [bind_eq_ok]
  constructor
  · rintro ⟨rows, hrows, hp⟩
    cases hp
    exact ⟨mapM_eq_ok_iff.mp hrows, rfl, rfl⟩
  · rintro ⟨hrows, hwords, hsymbols⟩
    refine ⟨p.rows, mapM_eq_ok_iff.mpr hrows, ?_⟩
    rw [← hwords, ← hsymbols]
    rfl

/-- The rows of a program hold the words of the placed commands, found with the finished table. -/
theorem SecondPass.forall₂_words {s : State} {p : Program} (h : SecondPass s p) :
    List.Forall₂ (fun q r => r.address = q.address ∧
      q.command.words s.symbols.lookup = .ok r.words) s.placed.toList p.rows := by
  refine h.rows.imp fun q r hr => ?_
  obtain ⟨words, hwords, -, rfl⟩ := Placed.row_eq_ok_iff.mp hr
  exact ⟨rfl, hwords⟩

/-- A row is that of a placed command. -/
theorem SecondPass.exists_placed {s : State} {p : Program} {r : Row} (h : SecondPass s p)
    (hr : r ∈ p.rows) : ∃ q ∈ s.placed.toList, q.row s.symbols.lookup = .ok r := by
  have hrows := h.rows
  generalize p.rows = rows at hr hrows
  generalize s.placed.toList = qs at hrows ⊢
  induction hrows with
  | nil => cases hr
  | @cons q r' qs rows hq _ ih =>
    rcases List.mem_cons.mp hr with rfl | hr
    · exact ⟨q, List.mem_cons_self, hq⟩
    · obtain ⟨q', hq', hrow⟩ := ih hr
      exact ⟨q', List.mem_cons_of_mem _ hq', hrow⟩

/-! ## The first pass -/

namespace Layout

/-- A layout is what a trace that uses up the lines has placed. -/
theorem proper_build (search : Search) (cursor : Cursor) (symbols : SymbolTable) :
    Proper (fun l => ∃ visits s, Trace search (.start cursor symbols) visits s ∧
      s.cursor.pending = [] ∧ l = ⟨s.placed.toList, s.symbols⟩)
      (build search cursor symbols).result := by
  unfold build
  split
  · exact .error rfl
  · next h hrun =>
    -- the run fails where one of its lines does
    obtain ⟨vs, mid, v, -, -, hstep⟩ := run_eq_error_iff.mp hrun
    exact .error (isInternal_of_step hstep)
  · next s hrun =>
    obtain ⟨vs, htrace, hdone⟩ := run_eq_ok_iff.mp hrun
    exact .ok ⟨vs, s, htrace, hdone, rfl⟩

end Layout

namespace Assembler

variable {a : Assembler} {fs : FileSystem} {src : Source}

/-- Defining names binds them one after the other, each to a word. -/
theorem proper_defineAll (t : SymbolTable) (pairs : List (String × Int)) :
    Bare (fun t' => t'.values = t.values.insertAll pairs ∧ ∀ pair ∈ pairs, IsWord pair.2)
      ((defineAll pairs).exec t).result := by
  induction pairs generalizing t with
  | nil => exact .ok ⟨rfl, List.forall_mem_nil _⟩
  | cons pair rest ih =>
    obtain ⟨name, value⟩ := pair
    -- the rest is defined in the table that the first name has been bound in
    rw [defineAll, Effect.exec_bind_result]
    refine (proper_define t name value .define).bind fun mid hmid => ?_
    obtain ⟨hlo, hhi, htable⟩ := hmid
    refine (ih mid).mono fun t' ht' => ⟨?_, List.forall_mem_cons.mpr ⟨⟨hlo, hhi⟩, ht'.2⟩⟩
    rw [ht'.1, htable, SymbolTable.values_insert, Bindings.insertAll_cons]

/-- Names can be bound to words. -/
theorem exists_defineAll (t : SymbolTable) {pairs : List (String × Int)}
    (h : ∀ pair ∈ pairs, IsWord pair.2) : ∃ t', ((defineAll pairs).exec t).result = .ok t' := by
  induction pairs generalizing t with
  | nil => exact ⟨t, rfl⟩
  | cons pair rest ih =>
    obtain ⟨name, value⟩ := pair
    obtain ⟨hword, hrest⟩ := List.forall_mem_cons.mp h
    have hcheck := SymbolTable.checkValue_of_isWord name hword
    obtain ⟨t', ht'⟩ := ih ⟨t.symbols.insert name ⟨value, .define, false⟩⟩ hrest
    refine ⟨t', ?_⟩
    rw [defineAll, Effect.exec_bind_result, Effect.exec, SymbolTable.define_of_ok hcheck]
    exact ht'

/-- The first pass over a source has handled the lines `visits` and is in the state `s`. -/
inductive FirstPass (a : Assembler) (fs : FileSystem) (src : Source) (visits : List Visit)
    (s : State) : Prop
  | intro {file : String} {texts : List String} {symbols : SymbolTable}
      (read : src.read fs = .ok (file, texts))
      (defined : ((defineAll a.defines.toList).exec .predefined).result = .ok symbols)
      (trace : Trace ⟨fs, a.directories⟩ (.start (Cursor.empty.splice file texts none) symbols)
        visits s)

theorem assembleLines_result (a : Assembler) (fs : FileSystem) (file : String)
    (texts : List String) :
    (a.assembleLines fs file texts).result =
      ((defineAll a.defines.toList).exec .predefined).result >>= fun symbols =>
        (build ⟨fs, a.directories⟩ (Cursor.empty.splice file texts none) symbols).result >>=
          fun layout => (Program.ofLayout layout).result := by
  simp only [assembleLines, Traced.bind_result]

/-- An assembly reads its source, and then its lines are assembled. -/
theorem assemble_result (a : Assembler) (fs : FileSystem) (src : Source) :
    (a.assemble fs src).result =
      src.read fs >>= fun lines => (a.assembleLines fs lines.1 lines.2).result := by
  cases src with
  | lines | text => rfl
  | file path =>
    simp only [assemble, Traced.bind_result, Traced.notes_result, Traced.ofExcept_result]
    rw [Source.read]
    cases Search.readLines fs path none <;> rfl

/-- What becomes of a run of the first pass: the second pass follows if it succeeds. -/
def finish : Option (Except Halt State) → Except Failure Program
  | none => .error .unfinished
  | some (.error e) => .error e.failure
  | some (.ok s) => (Program.ofLayout ⟨s.placed.toList, s.symbols⟩).result

/-- An assembly ends as the rest of its first pass does, from any state that the pass reaches. -/
theorem FirstPass.assemble_eq {visits : List Visit} {s : State}
    (first : FirstPass a fs src visits s) :
    (a.assemble fs src).result = finish (s.run ⟨fs, a.directories⟩) := by
  obtain ⟨read, defined, trace⟩ := first
  rw [assemble_result, read]
  refine (assembleLines_result ..).trans ?_
  rw [defined, ← trace.run_eq]
  simp only [bind, Except.bind, build]
  generalize State.run _ _ = outcome
  cases outcome with
  | none => rfl
  | some r => cases r <;> rfl

/-- **Two passes that succeed make a program.** -/
theorem assemble_eq_ok {visits : List Visit} {s : State} {p : Program}
    (first : FirstPass a fs src visits s) (done : s.cursor.pending = []) (second : SecondPass s p) :
    (a.assemble fs src).result = .ok p := by
  rw [first.assemble_eq, run_of_next?_eq_none (State.next?_eq_none_iff.mpr done)]
  exact secondPass_iff.mpr second

/-- How an assembly comes to fail: its source cannot be read, a name that it was given cannot be
defined, a line fails, the lines come to no end, or a command of the whole layout fails. -/
inductive FailsWith (a : Assembler) (fs : FileSystem) (src : Source) : Failure → Prop
  | read {f : Failure} (failed : src.read fs = .error f) : FailsWith a fs src f
  | define {f : Failure} {lines : String × List String} (read : src.read fs = .ok lines)
      (failed : ((defineAll a.defines.toList).exec .predefined).result = .error f) :
      FailsWith a fs src f
  | line {visits : List Visit} {s : State} {v : Visit} {e : Halt}
      (first : FirstPass a fs src visits s) (next : s.next? = some v)
      (failed : step ⟨fs, a.directories⟩ v.line v.state = .error e) : FailsWith a fs src e.failure
  | endless {visits : List Visit} {s : State} (first : FirstPass a fs src visits s)
      (run : s.run ⟨fs, a.directories⟩ = none) : FailsWith a fs src .unfinished
  | command {visits : List Visit} {s : State} {f : Failure} (first : FirstPass a fs src visits s)
      (done : s.cursor.pending = [])
      (failed : (Program.ofLayout ⟨s.placed.toList, s.symbols⟩).result = .error f) :
      FailsWith a fs src f

/-- **The ways in which an assembly fails are these.** -/
theorem assemble_eq_error_iff {f : Failure} :
    (a.assemble fs src).result = .error f ↔ FailsWith a fs src f := by
  constructor
  · intro h
    rw [assemble_result] at h
    rcases bind_eq_error.mp h with h | ⟨⟨file, texts⟩, read, h⟩
    · exact .read h
    rw [assembleLines_result] at h
    rcases bind_eq_error.mp h with h | ⟨symbols, defined, h⟩
    · exact .define read h
    rcases bind_eq_error.mp h with h | ⟨layout, hlayout, h⟩
    · -- the first pass fails where its run does
      unfold build at h
      split at h
      · next hrun =>
        cases h
        exact .endless ⟨read, defined, .nil _⟩ hrun
      · next e hrun =>
        cases h
        obtain ⟨visits, s, v, trace, next, failed⟩ := run_eq_error_iff.mp hrun
        exact .line ⟨read, defined, trace⟩ next failed
      · cases h
    · obtain ⟨visits, s, trace, done, rfl⟩ := (proper_build _ _ _).of_ok hlayout
      exact .command ⟨read, defined, trace⟩ done h
  · intro h
    cases h with
    | read failed =>
      rw [assemble_result, failed]
      rfl
    | define read failed =>
      rw [assemble_result, read]
      refine (assembleLines_result ..).trans ?_
      rw [failed]
      rfl
    | line first next failed => rw [first.assemble_eq, run_of_step_error next failed, finish]
    | endless first run => rw [first.assemble_eq, run, finish]
    | command first done failed =>
      rw [first.assemble_eq, run_of_next?_eq_none (State.next?_eq_none_iff.mpr done)]
      exact failed

/-- The state behind the first pass over lines, if it succeeds in at most `n` steps. -/
def layOutFor (a : Assembler) (fs : FileSystem) (n : Nat) (file : String) (texts : List String) :
    Option State := do
  let symbols ← ((defineAll a.defines.toList).exec .predefined).result.toOption
  let outcome ← runFor ⟨fs, a.directories⟩ n (.start (Cursor.empty.splice file texts none) symbols)
  outcome.toOption

/-- The program of lines, if at most `n` steps lay them out. -/
def assembleFor (a : Assembler) (fs : FileSystem) (n : Nat) (file : String) (texts : List String) :
    Option Program := do
  let s ← a.layOutFor fs n file texts
  (Program.ofLayout ⟨s.placed.toList, s.symbols⟩).result.toOption

theorem exists_firstPass_of_layOutFor {n : Nat} {file : String} {texts : List String} {s : State}
    (h : a.layOutFor fs n file texts = some s) :
    ∃ visits, FirstPass a fs (.lines file texts) visits s ∧ s.cursor.pending = [] := by
  obtain ⟨symbols, hsymbols, h⟩ := Option.bind_eq_some_iff.mp h
  obtain ⟨outcome, hrun, h⟩ := Option.bind_eq_some_iff.mp h
  rw [toOption_eq_some.mp h] at hrun
  obtain ⟨visits, trace, done⟩ := run_eq_ok_iff.mp (run_eq_of_runFor hrun)
  exact ⟨visits, ⟨rfl, toOption_eq_some.mp hsymbols, trace⟩, done⟩

/-- What is assembled in a bounded number of steps is assembled. -/
theorem assemble_eq_ok_of_assembleFor {n : Nat} {file : String} {texts : List String} {p : Program}
    (h : a.assembleFor fs n file texts = some p) :
    (a.assemble fs (.lines file texts)).result = .ok p := by
  obtain ⟨s, hs, h⟩ := Option.bind_eq_some_iff.mp h
  obtain ⟨visits, first, done⟩ := exists_firstPass_of_layOutFor hs
  exact assemble_eq_ok first done (secondPass_iff.mp (toOption_eq_some.mp h))

/-- The first `n` lines of a first pass, or fewer if no more can be handled, and the state behind
them. -/
def reach (a : Assembler) (fs : FileSystem) (src : Source) (n : Nat) :
    Option (List Visit × State) := do
  let (file, texts) ← (src.read fs).toOption
  let symbols ← ((defineAll a.defines.toList).exec .predefined).result.toOption
  advance ⟨fs, a.directories⟩ n (.start (Cursor.empty.splice file texts none) symbols)

theorem firstPass_of_reach {n : Nat} {visits : List Visit} {s : State}
    (h : a.reach fs src n = some (visits, s)) : FirstPass a fs src visits s := by
  obtain ⟨⟨file, texts⟩, hread, h⟩ := Option.bind_eq_some_iff.mp h
  obtain ⟨symbols, hsymbols, h⟩ := Option.bind_eq_some_iff.mp h
  have trace := trace_advance ⟨fs, a.directories⟩ n
    (.start (Cursor.empty.splice file texts none) symbols)
  rw [Option.some.inj h] at trace
  exact ⟨toOption_eq_some.mp hread, toOption_eq_some.mp hsymbols, trace⟩

/-- The failure of an assembly, if a line or a command fails and at most `n` steps lead to it. -/
def failureFor (a : Assembler) (fs : FileSystem) (src : Source) (n : Nat) : Option Failure := do
  let (_, s) ← a.reach fs src 0
  let outcome ← runFor ⟨fs, a.directories⟩ n s
  match finish (some outcome) with
  | .error f => some f
  | .ok _ => none

/-- What fails in a bounded number of steps fails. -/
theorem assemble_eq_error_of_failureFor {n : Nat} {f : Failure}
    (h : a.failureFor fs src n = some f) : (a.assemble fs src).result = .error f := by
  obtain ⟨⟨visits, s⟩, hs, h⟩ := Option.bind_eq_some_iff.mp h
  obtain ⟨outcome, hrun, h⟩ := Option.bind_eq_some_iff.mp h
  rw [(firstPass_of_reach hs).assemble_eq, run_eq_of_runFor hrun]
  split at h
  · next hfinish => rw [hfinish, Option.some.inj h]
  · cases h

end Assembler

end NibbleAsm
