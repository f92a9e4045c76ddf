import NibbleAsm.Proofs.Pending
import NibbleAsm.Proofs.Place
import Mathlib.Data.Multiset.DershowitzManna

/-!
# Assembly comes to an end

A line that includes a file puts lines in front, so the lines still to be read may become more. But
the lines of the file are nested one level deeper than the line, and since no file is opened while
it is open, no line is nested deeper than there are files. A line is thus replaced by lines that are
closer to the bound. Such replacements come to an end, in whatever way the files include one
another.

A file with the name of a pseudo-file is never taken to be open, so the argument does not extend to
a tree in which such a file can be included.

## Main definitions

* `Search.Unreserved`: no file that can be included has the name of a pseudo-file
* `SourceLine.Nested`: the files that led to a line are different files
* `weights`: how far lines are from the bound

## Main results

* `SourceLine.Nested.length_chain_le`: a line is nested no deeper than there are files
* `weights_lt_of_step`: each line makes the weights smaller
* `exists_runFor`: a run comes to an end after some number of lines
* `assemble_ends`: every first pass comes to an end, and its lines are nested
-/

namespace NibbleAsm

/-- No file that a line may ask for has a path that reads like the name of a pseudo-file. -/
def Search.Unreserved (search : Search) : Prop :=
  ∀ line name path, SourceLine.Asks search line name path → isPseudoFile path.text = false

/-- It is enough that no entry of the working directory has such a name. -/
theorem Search.unreserved_of_entries {search : Search}
    (plain : ∀ e ∈ search.files.entries, e.1.dropLast = search.files.cwd →
      ∀ name ∈ e.1.getLast?, isPseudoFile name = false) : search.Unreserved := by
  intro line name path asks
  exact FileSystem.isPseudoFile_text plain (find_eq_ok asks.found).2

/-! ## Nesting -/

/-- The files that led to a line are files of the tree, each at a place of its own. This does not
include the outermost one, which may be a pseudo-file and may have any name. -/
structure SourceLine.Nested (fs : FileSystem) (l : SourceLine) : Prop where
  nonempty : l.chain ≠ []
  included : ∀ name ∈ l.chain.tail, isPseudoFile name = false ∧ fs.place name ∈ fs.filePlaces
  distinct : ((Search.openFiles l).map fs.place).Nodup

section Nested

variable {fs : FileSystem} {search : Search} {l m : SourceLine}

/-- **A line is nested no deeper than there are files**, not counting the outermost one. -/
theorem SourceLine.Nested.length_chain_le (h : l.Nested fs) :
    l.chain.length ≤ fs.filePlaces.card + 1 := by
  obtain ⟨outermost, rest, hchain⟩ := List.exists_cons_of_ne_nil h.nonempty
  have hrest : ∀ name ∈ rest, isPseudoFile name = false ∧ fs.place name ∈ fs.filePlaces := by
    simpa [hchain] using h.included
  -- all files but the outermost are open, so their places differ
  have hopen : rest.Sublist (Search.openFiles l) := by
    have hkeep : rest.filter (fun name => !isPseudoFile name) = rest :=
      List.filter_eq_self.mpr fun name hname => by simp [(hrest name hname).1]
    have hfilter := (List.sublist_cons_self outermost rest).filter fun name => !isPseudoFile name
    rw [hkeep, ← hchain] at hfilter
    exact hfilter
  have hnodup : (rest.map fs.place).Nodup := h.distinct.sublist (hopen.map _)
  have hsubset : (rest.map fs.place).toFinset ⊆ fs.filePlaces := by
    intro place hplace
    obtain ⟨name, hname, rfl⟩ := List.mem_map.mp (List.mem_toFinset.mp hplace)
    exact (hrest name hname).2
  have hcard := Finset.card_le_card hsubset
  rw [List.toFinset_card_of_nodup hnodup, List.length_map] at hcard
  rw [hchain, List.length_cons]
  omega

/-- A file that is not open has a place that differs from the places of the open files. -/
theorem Search.not_mem_of_isOpen {path : FilePath} (h : Search.isOpen fs l path = .ok false) :
    fs.canonical path ∉ (Search.openFiles l).map fs.place := by
  have hclosed := (proper_isOpen fs l path).of_ok h
  intro hmem
  obtain ⟨name, hname, hplace⟩ := List.mem_map.mp hmem
  have hany : ((Search.openFiles l).any fun name => fs.canonical (FilePath.ofString name) ==
      fs.canonical path) = true :=
    List.any_eq_true.mpr ⟨name, hname, beq_iff_eq.mpr hplace⟩
  exact Bool.false_ne_true (hclosed.trans hany)

theorem Search.openFiles_of_chain {name : String} (h : l.chain = m.chain ++ [name])
    (plain : isPseudoFile name = false) :
    Search.openFiles l = Search.openFiles m ++ [name] := by
  simp [Search.openFiles, h, plain]

/-- **The lines of an included file are nested if the line that includes it is.** -/
theorem SourceLine.Nested.of_splices (unreserved : search.Unreserved)
    (splices : m.Splices search l) (h : m.Nested search.files) : l.Nested search.files := by
  obtain ⟨path, texts, includes, hmem⟩ := splices
  obtain ⟨i, hi, rfl⟩ := mem_numberLines.mp hmem
  obtain ⟨name, asks⟩ := includes.asks
  have hplain := unreserved _ _ _ asks
  obtain ⟨hplace, hfile⟩ := Search.place_mem_filePlaces asks.found
  refine ⟨by simp, ?_, ?_⟩
  · intro name hname
    rw [List.tail_append_of_ne_nil h.nonempty, List.mem_append, List.mem_singleton] at hname
    rcases hname with hname | rfl
    · exact h.included name hname
    · exact ⟨hplain, hplace ▸ hfile⟩
  · rw [Search.openFiles_of_chain rfl hplain, List.map_append, List.map_singleton,
      ← List.concat_eq_append, List.nodup_concat, hplace]
    exact ⟨Search.not_mem_of_isOpen includes.closed, h.distinct⟩

/-- The lines of a source are nested: only one file led to them. -/
theorem nested_of_mem_numberLines {file : String} {texts : List String}
    (h : l ∈ numberLines file [] texts) : l.Nested fs := by
  obtain ⟨i, hi, rfl⟩ := mem_numberLines.mp h
  refine ⟨by simp, by simp, ?_⟩
  by_cases hpseudo : isPseudoFile file = true
  · simp [Search.openFiles, hpseudo]
  · simp [Search.openFiles, hpseudo]

end Nested

/-! ## Weights -/

namespace Layout

variable {search : Search} {line : SourceLine} {s s' : State} {v : Visit} {vs : List Visit}

/-- How many more levels a line could include. -/
def weight (fs : FileSystem) (l : SourceLine) : Nat :=
  fs.filePlaces.card + 1 - l.chain.length

/-- The weights of lines, in no order. -/
def weights (fs : FileSystem) (lines : List SourceLine) : Multiset Nat :=
  lines.map (weight fs)

theorem weights_cons (fs : FileSystem) (line : SourceLine) (lines : List SourceLine) :
    weights fs (line :: lines) = weights fs lines + {weight fs line} := by
  rw [add_comm, Multiset.singleton_add]
  rfl

theorem weights_append (fs : FileSystem) (lines more : List SourceLine) :
    weights fs (lines ++ more) = weights fs more + weights fs lines := by
  rw [add_comm]
  simp [weights]

/-- A line includes lines of smaller weight. -/
theorem weight_lt_of_splices {l m : SourceLine} (splices : m.Splices search l)
    (h : l.Nested search.files) : weight search.files l < weight search.files m := by
  have hdepth := h.length_chain_le
  have hlength : l.chain.length = m.chain.length + 1 := by simp [splices.chain_eq]
  unfold weight
  omega

/-- **Each line makes the weights smaller**: it is taken away, and lines that come in its place have
smaller weights. -/
theorem weights_lt_of_step (next : s.next? = some v) (done : step search v.line v.state = .ok s')
    (nested : ∀ l ∈ s'.cursor.pending, l.Nested search.files) :
    (weights search.files s'.cursor.pending).IsDershowitzMannaLT
      (weights search.files s.cursor.pending) := by
  rw [(State.pending_of_next? next).1]
  rcases (handled_of_step done).pending with ⟨used, hused⟩ | ⟨path, texts, includes, hspliced⟩
  · -- the line and the lines it has used up are gone
    refine ⟨weights search.files s'.cursor.pending, 0, weights search.files (v.line :: used),
      ?_, ?_, ?_, ?_⟩
    · simp [weights]
    · simp
    · rw [← hused, ← weights_append, List.cons_append]
    · simp
  · -- the line is replaced by the lines of a file
    refine ⟨weights search.files v.state.cursor.pending,
      weights search.files (numberLines path.text v.line.chain texts),
      {weight search.files v.line}, ?_, ?_, ?_, ?_⟩
    · simp
    · rw [hspliced, weights_append]
    · exact weights_cons _ _ _
    · intro n hn
      obtain ⟨l, hl, rfl⟩ := List.mem_map.mp (Multiset.mem_coe.mp hn)
      have hnested : l.Nested search.files := nested l (by simp [hspliced, hl])
      exact ⟨_, Multiset.mem_singleton_self _,
        weight_lt_of_splices ⟨path, texts, includes, hl⟩ hnested⟩

/-- **A run comes to an end after some number of lines**, if the lines it starts with are nested. -/
theorem exists_runFor (unreserved : search.Unreserved)
    (nested : ∀ l ∈ s.cursor.pending, l.Nested search.files) :
    ∃ n outcome, runFor search n s = some outcome := by
  have hwf := Multiset.wellFounded_isDershowitzMannaLT (α := Nat)
  induction hw : weights search.files s.cursor.pending using hwf.induction generalizing s with
  | _ ws ih =>
    cases hv : s.next? with
    | none => exact ⟨1, .ok s, runFor_of_next?_eq_none hv⟩
    | some v =>
      cases hs : step search v.line v.state with
      | error e => exact ⟨1, .error e, runFor_of_step_error hv hs⟩
      | ok s' =>
        have hnested := ((Trace.cons hv hs (.nil s')).forall_lines nested
          fun _ _ _ splices => .of_splices unreserved splices).1
        have hlt := weights_lt_of_step hv hs hnested
        obtain ⟨n, outcome, hn⟩ := ih _ (hw ▸ hlt) hnested rfl
        exact ⟨n + 1, outcome, (runFor_of_step_ok hv hs).trans hn⟩

end Layout

namespace Assembler

open Layout

variable {a : Assembler} {fs : FileSystem} {src : Source} {visits : List Visit} {s : State}

theorem FirstPass.nested (unreserved : Search.Unreserved ⟨fs, a.directories⟩)
    (first : FirstPass a fs src visits s) : ∀ l ∈ s.cursor.pending, l.Nested fs :=
  (first.forall_lines (fun _ _ _ _ hl => nested_of_mem_numberLines hl)
    fun _ _ _ splices => .of_splices unreserved splices).1

/-- **Every assembly comes to an end**, if no file that can be included has the name of a
pseudo-file. From each state of the first pass finitely many lines lead to a state with no line left
or to a line that fails. In each such state, the files that led to a line still to be read are
different files, so lines are nested no deeper than there are files below the outermost. -/
theorem assemble_ends (unreserved : Search.Unreserved ⟨fs, a.directories⟩) (src : Source) :
    (a.assemble fs src).result ≠ .error .unfinished ∧
    ∀ visits s, FirstPass a fs src visits s →
      (∃ more t, Trace ⟨fs, a.directories⟩ s more t ∧
        ((t.cursor.pending = [] ∧ s.run ⟨fs, a.directories⟩ = some (.ok t)) ∨
          ∃ v e, t.next? = some v ∧ step ⟨fs, a.directories⟩ v.line v.state = .error e ∧
            s.run ⟨fs, a.directories⟩ = some (.error e))) ∧
      ∀ l ∈ s.cursor.pending, l.Nested fs ∧ l.chain.length ≤ fs.filePlaces.card + 1 := by
  have hends : ∀ visits s, FirstPass a fs src visits s →
      ∃ n outcome, runFor ⟨fs, a.directories⟩ n s = some outcome :=
    fun visits s first => exists_runFor unreserved (first.nested unreserved)
  constructor
  · intro hresult
    obtain ⟨visits, s, first, hrun⟩ := (assemble_eq_error_iff.mp hresult).run_eq_none
    obtain ⟨n, outcome, hn⟩ := hends visits s first
    rw [run_eq_of_runFor hn] at hrun
    cases hrun
  · intro visits s first
    refine ⟨?_, fun l hl => ?_⟩
    · obtain ⟨n, outcome, hn⟩ := hends visits s first
      have hrun := run_eq_of_runFor hn
      obtain ⟨more, t, trace, ⟨hnone, rfl⟩ | ⟨v, e, hv, hstep, rfl⟩⟩ := exists_trace_of_runFor hn
      · exact ⟨more, t, trace, .inl ⟨State.next?_eq_none_iff.mp hnone, hrun⟩⟩
      · exact ⟨more, t, trace, .inr ⟨v, e, hv, hstep, hrun⟩⟩
    · have hnested := first.nested unreserved l hl
      exact ⟨hnested, hnested.length_chain_le⟩

/-- Two files that include one another, by different spellings of their names. -/
theorem assemble_ends_mutual :
    let files := ((FileSystem.empty ["w"]).set ["w", "a"] (.file (textBytes ".include b"))).set
      ["w", "b"] (.file (textBytes ".include ./a"))
    let a := new [] .empty
    let src := Source.lines inputName [".include a", "NOP"]
    (a.assemble files src).result ≠ .error .unfinished ∧
    ∃ visits s, FirstPass a files src visits s ∧
      s.cursor.pending.map SourceLine.chain = [[inputName, "a", "b"], [inputName]] ∧
      (∃ more t, Trace ⟨files, a.directories⟩ s more t ∧
        ((t.cursor.pending = [] ∧ s.run ⟨files, a.directories⟩ = some (.ok t)) ∨
          ∃ v e, t.next? = some v ∧ step ⟨files, a.directories⟩ v.line v.state = .error e ∧
            s.run ⟨files, a.directories⟩ = some (.error e))) ∧
      ∀ l ∈ s.cursor.pending, l.Nested files ∧ l.chain.length ≤ files.filePlaces.card + 1 := by
  intro files a src
  have unreserved : Search.Unreserved ⟨files, a.directories⟩ :=
    Search.unreserved_of_entries (by decide +kernel)
  have hreach : (a.reach files src 2).map (fun p => p.2.cursor.pending.map SourceLine.chain) =
      some [[inputName, "a", "b"], [inputName]] := by decide +kernel
  obtain ⟨⟨visits, s⟩, hs, hchains⟩ := Option.map_eq_some_iff.mp hreach
  have first := firstPass_of_reach hs
  obtain ⟨hfinished, hstates⟩ := assemble_ends unreserved src
  exact ⟨hfinished, visits, s, first, hchains, hstates visits s first⟩

end Assembler

end NibbleAsm
