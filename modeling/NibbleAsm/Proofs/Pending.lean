import NibbleAsm.Proofs.Inclusion

/-!
# The lines still to be read

A line may use up some of the lines behind it, and a line that includes a file puts the lines of the
file in front of them. So each line that is still to be read stood in the source, or was put there
by a line handled before. What holds of the source and passes from a line to the lines it includes
therefore holds of every line of a run.

## Main definitions

* `SourceLine.Asks`: a line asks for a file, and the file is found
* `SourceLine.Splices`: a line includes a file, and another line is one of the file's lines

## Main results

* `Handled.pending`: what a line does to the lines still to be read
* `Handled.mem_pending`: where a line that is still to be read comes from
* `Trace.forall_lines`, `FirstPass.forall_lines`: what passes from a line to the lines it includes
  holds of all lines of a run
-/

namespace NibbleAsm

variable {search : Search} {l m : SourceLine} {file : String} {chain texts : List String}

/-- A line asks for a file: it names one, and the name leads to a path. -/
structure SourceLine.Asks (search : Search) (line : SourceLine) (name : String) (path : FilePath) :
    Prop where
  keyword : line.keyword = ".include"
  named : Text.words line.operandText = [name]
  found : search.find (unquote name) line.location = .ok path

/-- A line is one of the lines of the file that another line includes. -/
def SourceLine.Splices (search : Search) (m l : SourceLine) : Prop :=
  ∃ path texts, m.Includes search path texts ∧ l ∈ numberLines path.text m.chain texts

theorem SourceLine.Includes.asks {path : FilePath} (h : m.Includes search path texts) :
    ∃ name, m.Asks search name path := by
  obtain ⟨name, hname, hfind⟩ := h.named
  exact ⟨name, h.keyword, hname, hfind⟩

theorem mem_numberLines :
    l ∈ numberLines file chain texts ↔
      ∃ i, ∃ _ : i < texts.length, ⟨file, i + 1, Text.chomp texts[i], chain ++ [file]⟩ = l :=
  List.mem_mapIdx

theorem SourceLine.Splices.chain_eq (h : m.Splices search l) : l.chain = m.chain ++ [l.file] := by
  obtain ⟨path, texts, -, hmem⟩ := h
  obtain ⟨i, hi, rfl⟩ := mem_numberLines.mp hmem
  rfl

namespace Layout

variable {line : SourceLine} {s s' : State} {v : Visit} {vs : List Visit}

/-- **What a line does to the lines still to be read**: it uses some of them up, or it puts the
lines of the file that it includes in front. -/
theorem Handled.pending (h : Handled search line s s') :
    s'.cursor.pending <:+ s.cursor.pending ∨
      ∃ path texts, line.Includes search path texts ∧
        s'.cursor.pending = numberLines path.text line.chain texts ++ s.cursor.pending := by
  cases h with
  | blank => exact .inl List.suffix_rfl
  | label _ _ _ _ defined =>
    obtain ⟨-, -, rfl⟩ := State.define_eq_ok defined
    exact .inl List.suffix_rfl
  | directive _ named directed placed =>
    obtain ⟨-, rfl⟩ := State.place_eq_ok placed
    -- directives of several lines use lines up, and one directive brings lines in
    cases directed with
    | set _ _ _ _ _ defined =>
      obtain ⟨-, -, rfl⟩ := State.define_eq_ok defined
      exact .inl List.suffix_rfl
    | array _ read => exact .inl ((ends_readArray _ _ (by simp) _ _).of_ok read).2
    | longString _ _ read => exact .inl ((proper_readLongString _ _ _).of_ok read)
    | includeFile split found closed read =>
      have hmem := Directive.mem_table_of_ofName? named
      have hkeyword : line.keyword = ".include" := by simpa [Directive.table] using hmem
      have hname := (proper_oneOperand _ _).of_ok split
      exact .inr ⟨_, _, ⟨hkeyword, ⟨_, hname, found⟩, closed, read⟩, rfl⟩
    | _ => exact .inl List.suffix_rfl
  | operation _ _ _ placed =>
    obtain ⟨-, rfl⟩ := State.place_eq_ok placed
    exact .inl List.suffix_rfl

theorem Handled.mem_pending (h : Handled search line s s') (hl : l ∈ s'.cursor.pending) :
    l ∈ s.cursor.pending ∨ line.Splices search l := by
  rcases h.pending with hsuffix | ⟨path, texts, hincludes, hpending⟩
  · exact .inl (hsuffix.mem hl)
  · rw [hpending, List.mem_append] at hl
    exact hl.symm.imp_right fun hmem => ⟨path, texts, hincludes, hmem⟩

/-- **What passes from a line to the lines it includes holds of all lines still to be read**, and it
held of each line that has been handled. -/
theorem Trace.forall_lines {C : SourceLine → Prop} (h : Trace search s vs s')
    (hs : ∀ l ∈ s.cursor.pending, C l)
    (splice : ∀ v ∈ vs, ∀ l, v.line.Splices search l → C v.line → C l) :
    (∀ l ∈ s'.cursor.pending, C l) ∧ ∀ v ∈ vs, C v.line := by
  induction h with
  | nil => exact ⟨hs, List.forall_mem_nil _⟩
  | @cons s mid s' v vs next done _ ih =>
    rw [(State.pending_of_next? next).1, List.forall_mem_cons] at hs
    rw [List.forall_mem_cons] at splice
    have hmid : ∀ l ∈ mid.cursor.pending, C l := by
      intro l hl
      rcases (handled_of_step done).mem_pending hl with hpending | hsplices
      · exact hs.2 l hpending
      · exact splice.1 l hsplices hs.1
    obtain ⟨hpending, hvisits⟩ := ih hmid splice.2
    exact ⟨hpending, List.forall_mem_cons.mpr ⟨hs.1, hvisits⟩⟩

end Layout

namespace Assembler

open Layout

variable {a : Assembler} {fs : FileSystem} {src : Source} {visits : List Visit} {s : State}

/-- **What holds of the lines of a source, and passes from a line to the lines it includes, holds of
every line of a first pass.** -/
theorem FirstPass.forall_lines {C : SourceLine → Prop} (first : FirstPass a fs src visits s)
    (source : ∀ file texts, src.read fs = .ok (file, texts) → ∀ l ∈ numberLines file [] texts, C l)
    (splice : ∀ v ∈ visits, ∀ l, v.line.Splices ⟨fs, a.directories⟩ l → C v.line → C l) :
    (∀ l ∈ s.cursor.pending, C l) ∧ ∀ v ∈ visits, C v.line := by
  obtain ⟨read, -, trace⟩ := first
  refine trace.forall_lines (fun l hl => source _ _ read l ?_) splice
  rw [splice_empty] at hl
  exact hl

end Assembler

end NibbleAsm
