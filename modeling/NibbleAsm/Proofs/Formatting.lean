import NibbleAsm.Proofs.Inclusion
import NibbleAsm.Proofs.SymbolName

/-!
# Comments and blanks

A line is read through its content, which has neither comment nor outer blanks. Its text counts in
two places: a string is stored as it stands on its line, and a long string as it stands on the lines
up to its terminator. So comments and outer blanks can be changed on all other lines. The program
stays the same, and a failure keeps its cause, its hint and its place.

## Main definitions

* `Restyles`: texts with the same content, which are equal if they store a string
* `Visit.storedLines`: the lines of the long string that a line opens
* `Assembler.Stores`: a line belongs to a long string
* `Failure.Agrees`: failures with the same cause, hint and place

## Main results

* `stripComment_chomp`: line breaks behind a text have no part in its content
* `State.Restyled.corresponds`, `step_restyled`: lines with other comments have the same effect
* `assemble_restyled`: comments and outer blanks do not matter
-/

namespace NibbleAsm

open Layout

/-! ## Texts with the same content -/

namespace Text

variable {p : Char → Bool} {cs tail : List Char}

theorem dropTail_append (h : ∀ c ∈ tail, p c = true) (cs : List Char) :
    dropTail p (cs ++ tail) = dropTail p cs := by
  rw [dropTail, List.reverse_append, List.dropWhile_append_of_pos (by simpa using h), dropTail]

theorem exists_dropTail (p : Char → Bool) (cs : List Char) :
    ∃ tail, cs = dropTail p cs ++ tail ∧ ∀ c ∈ tail, p c = true := by
  refine ⟨(cs.reverse.takeWhile p).reverse, ?_, fun c hc => ?_⟩
  · rw [dropTail, ← List.reverse_append, List.takeWhile_append_dropWhile, List.reverse_reverse]
  · exact List.mem_takeWhile_imp (List.mem_reverse.mp hc)

/-- Blanks behind a text have no part in what is left of it without outer blanks. -/
theorem dropTail_dropWhile_append (h : ∀ c ∈ tail, p c = true) (cs : List Char) :
    dropTail p ((cs ++ tail).dropWhile p) = dropTail p (cs.dropWhile p) := by
  rw [List.dropWhile_append]
  split
  · next hempty =>
    rw [List.isEmpty_iff.mp hempty, List.dropWhile_eq_nil_iff.mpr h]
  · exact dropTail_append h _

theorem trim_chomp (s : String) : trim (chomp s) = trim s := by
  obtain ⟨tail, hs, htail⟩ := exists_dropTail (fun c => c = '\r' ∨ c = '\n') s.toList
  have hblank : ∀ c ∈ tail, isBlank c = true := by
    intro c hc
    rcases of_decide_eq_true (htail c hc) with rfl | rfl <;> decide +kernel
  rw [trim, trim, chomp, String.toList_ofList]
  nth_rewrite 2 [hs]
  rw [dropTail_dropWhile_append hblank]

end Text

/-- Line breaks behind a text have no part in its content. -/
theorem stripComment_chomp (text : String) :
    stripComment (Text.chomp text) = stripComment text := by
  rw [stripComment, Text.trim_chomp, stripComment]

/-- The second text has the content of the first, and is the same if it stores a string. -/
structure Restyles (t u : String) : Prop where
  content : stripComment t = stripComment u
  stored : (Text.firstWord (stripComment t)).1 ∈ rawDirectives → t = u

/-! ## Failures with the same place -/

/-- The place of a failure, if it has one. -/
def Failure.location? : Failure → Option Location
  | error d => d.location
  | fault _ | unfinished => none

/-- Failures with the same cause, hint and place, or the same fault. The lines of source that they
show may differ. -/
structure Failure.Agrees (f g : Failure) : Prop where
  alike : f.Alike g
  location : f.location? = g.location?

namespace Failure.Agrees

variable {f g : Failure}

theorem refl (f : Failure) : f.Agrees f :=
  ⟨.refl f, rfl⟩

/-- Failures that are placed at the same line agree, whatever they show of it. -/
theorem locate (h : f.Agrees g) (l : Location) (t u : Option String) :
    (f.locate l t).Agrees (g.locate l u) := by
  obtain ⟨halike, hlocation⟩ := h
  refine ⟨halike.locate _ _ _ _, ?_⟩
  cases halike with
  | @error d e _ _ =>
    change d.location = e.location at hlocation
    change (d.locate l t).location = (e.locate l u).location
    unfold Diagnostic.locate
    rw [hlocation]
    cases he : e.location with
    | none => rfl
    | some place => exact hlocation
  | fault | unfinished => rfl

end Failure.Agrees

/-! ## Lines with other comments -/

/-- The second line stands in the place of the first and has its content. It has the same text if it
stores a string, or if it is one of the lines `V`. -/
structure SourceLine.Restyled (V : SourceLine → Prop) (l m : SourceLine) : Prop where
  file : l.file = m.file
  number : l.number = m.number
  chain : l.chain = m.chain
  content : l.content = m.content
  text : l.keyword ∈ rawDirectives ∨ V l → l.text = m.text

section Lines

variable {V : SourceLine → Prop} {l m : SourceLine} {ls ms : List SourceLine}

theorem SourceLine.Restyled.refl (V : SourceLine → Prop) (l : SourceLine) : l.Restyled V l :=
  ⟨rfl, rfl, rfl, rfl, fun _ => rfl⟩

theorem SourceLine.Restyled.location (h : l.Restyled V m) : l.location = m.location := by
  rw [SourceLine.location, h.file, h.number, SourceLine.location]

/-- The same was read, and the lines left have the same contents. -/
structure Taken.Restyled {α : Type} (V : SourceLine → Prop) (t u : Taken α) : Prop where
  value : t.value = u.value
  rest : List.Forall₂ (SourceLine.Restyled V) t.rest u.rest

/-- An array is read through the contents of its lines. -/
theorem readArray_restyled (h : List.Forall₂ (SourceLine.Restyled V) ls ms)
    (hl : l.location = m.location) (text : String) (elements : Array Operand) (count : Nat) :
    Follows False Failure.Agrees (Taken.Restyled V) (readArray l text elements count ls)
      (readArray m text elements count ms) := by
  induction h generalizing l m text elements count with
  | nil =>
    unfold readArray
    rcases arrayLine elements text with f | ⟨more, _ | _⟩
    · exact .error (hl ▸ (Failure.Agrees.refl f).locate _ _ _)
    · exact .error (.refl _)
    · exact .ok ⟨rfl, .nil⟩
  | @cons next next' ls ms first rest ih =>
    unfold readArray
    rcases arrayLine elements text with f | ⟨more, _ | _⟩
    · exact .error (hl ▸ (Failure.Agrees.refl f).locate _ _ _)
    · change Follows _ _ _ (readArray next next.content more (count + 1) ls)
        (readArray next' next'.content more (count + 1) ms)
      rw [first.content]
      exact ih first.location _ _ _
    · exact .ok ⟨rfl, .cons first rest⟩

/-- Whether a line closes a long string. -/
def SourceLine.closesLongString (l : SourceLine) : Bool :=
  l.content = endLongStringName

/-- The lines of a long string, up to its terminator; none if there is no terminator. -/
def longStringLines (pending : List SourceLine) : List SourceLine :=
  if pending.any SourceLine.closesLongString then
    pending.takeWhile fun l => !l.closesLongString
  else []

theorem longStringLines_cons_of_open (hl : l.closesLongString = false)
    (closed : ls.any SourceLine.closesLongString = true) :
    longStringLines (l :: ls) = l :: longStringLines ls := by
  simp [longStringLines, hl, closed]

/-- A long string is read from the texts of its lines, up to the terminator. If there is none, it is
not closed, whatever the texts are. -/
theorem readLongString_restyled (h : List.Forall₂ (SourceLine.Restyled V) ls ms)
    (stored : ∀ l ∈ longStringLines ls, V l) (body body' : List String)
    (same : ls.any SourceLine.closesLongString = true → body = body') (count : Nat) :
    Follows False Failure.Agrees (Taken.Restyled V) (readLongString body count ls)
      (readLongString body' count ms) := by
  induction h generalizing body body' count with
  | nil => exact .error (.refl _)
  | @cons l m ls ms first rest ih =>
    rw [readLongString, readLongString, ← first.content]
    split
    · next hend =>
      have hbody : body = body' := same (by simp [SourceLine.closesLongString, hend])
      exact .ok ⟨by rw [hbody], rest⟩
    · next hopen =>
      have hl : l.closesLongString = false := by simpa [SourceLine.closesLongString] using hopen
      -- the text of this line counts only if the long string is closed behind it
      by_cases closed : ls.any SourceLine.closesLongString = true
      · rw [longStringLines_cons_of_open hl closed, List.forall_mem_cons] at stored
        have hbody := same (by simp [closed])
        exact ih stored.2 _ _ (fun _ => by rw [hbody, first.text (.inr stored.1)]) _
      · refine ih (fun l hl => ?_) _ _ (fun h => absurd h closed) _
        simp [longStringLines, closed] at hl

end Lines

/-! ## Directives and lines -/

namespace Layout

variable {α β : Type} {V : SourceLine → Prop} {search : Search} {l m : SourceLine} {s t : State}

/-- Ends of a run with failures that agree. -/
def Halt.Agrees (e f : Halt) : Prop :=
  e.failure.Agrees f.failure

/-- States that differ in the lines still to be read only, and in these by comments and outer
blanks. -/
structure State.Restyled (V : SourceLine → Prop) (s t : State) : Prop where
  pending : List.Forall₂ (SourceLine.Restyled V) s.cursor.pending t.cursor.pending
  frame : t = { s with cursor := t.cursor }

/-- The lines of the long string that a visited line opens. -/
def Visit.storedLines (v : Visit) : List SourceLine :=
  if v.line.keyword = ".long-string" then longStringLines v.state.cursor.pending else []

theorem State.Restyled.define (hs : s.Restyled V t) (name : String) (value : Int)
    (location : Location) :
    Follows False Halt.Agrees (State.Restyled V) (s.define name value location)
      (t.define name value location) := by
  rw [hs.frame]
  cases h : SymbolTable.checkValue name value with
  | error f =>
    rw [State.define_of_error h, State.define_of_error h]
    exact .error (Failure.Agrees.refl f)
  | ok v =>
    rw [State.define_of_ok h, State.define_of_ok h]
    exact .ok ⟨hs.pending, rfl⟩

theorem State.Restyled.place (hs : s.Restyled V t) (hl : l.Restyled V m) (title : String)
    (command : Command) :
    Follows False Halt.Agrees (State.Restyled V) (s.place l title command)
      (t.place m title command) := by
  unfold State.place
  rw [hs.frame, hl.location, hl.content]
  dsimp only
  split
  · exact .error (Failure.Agrees.refl _)
  · exact .ok ⟨hs.pending, rfl⟩

theorem State.Restyled.takenRel {α : Type} (hs : s.Restyled V t) {a b : Taken α}
    (hab : a.Restyled V b) : TakenRel (State.Restyled V) s t a b :=
  ⟨hab.value, hab.rest, by rw [State.take, State.take, hs.frame]⟩

/-- A line with another comment corresponds to the line, if the lines of the long string that it may
open have the same texts. -/
theorem State.Restyled.corresponds (search : Search) (hl : l.Restyled V m) (hs : s.Restyled V t)
    (stored : ∀ k ∈ Visit.storedLines ⟨l, s⟩, V k) :
    Corresponds search False Failure.Agrees (State.Restyled V) l m s t where
  refl := .refl
  locate _ _ hfg := hl.location ▸ hfg.locate _ _ _
  content := hl.content
  text hraw := hl.text (.inl hraw)
  lookup := by rw [hs.frame]
  index := by rw [hs.frame]
  array text := (readArray_restyled hs.pending hl.location text #[] 0).mono fun _ _ => hs.takenRel
  longString hkeyword := by
    rw [Visit.storedLines, if_pos hkeyword] at stored
    have hread := readLongString_restyled hs.pending stored [] [] (fun _ => rfl) 0
    exact hread.mono fun _ _ => hs.takenRel
  find _ name := hl.location ▸ .same .refl _
  isOpen _ path := by simp only [Search.isOpen, Search.openFiles, hl.chain]
  readLines path := hl.location ▸ .same .refl _
  readWords path := hl.location ▸ .same .refl _
  state := hs
  define name value := hl.location ▸ hs.define _ _ _
  place _ _ hs' title command := hs'.place hl _ _
  splice _ note path texts := by
    rw [hl.location, hs.frame]
    refine ⟨?_, rfl⟩
    -- the lines of the file are the same on both sides
    change List.Forall₂ _ (numberLines path l.chain texts ++ s.cursor.pending)
      (numberLines path m.chain texts ++ t.cursor.pending)
    rw [hl.chain]
    exact List.rel_append (List.forall₂_same.mpr fun k _ => .refl V k) hs.pending
  copy note count path := by
    rw [hl.location, hs.frame]
    exact ⟨hs.pending, rfl⟩

/-- **A line with another comment has the same effect.** -/
theorem step_restyled (search : Search) (hl : l.Restyled V m) (hs : s.Restyled V t)
    (stored : ∀ k ∈ Visit.storedLines ⟨l, s⟩, V k) :
    OutcomeRel Halt.Agrees (State.Restyled V) (step search l s) (step search m t) :=
  (hs.corresponds search hl stored).step.outcomeRel id

theorem State.Restyled.next? {v : Visit} (hs : s.Restyled V t) (next : s.next? = some v) :
    ∃ w, t.next? = some w ∧ v.line.Restyled V w.line ∧ v.state.Restyled V w.state := by
  obtain ⟨hpending, hstate⟩ := State.pending_of_next? next
  have hlines := hs.pending
  rw [hpending] at hlines
  obtain ⟨m, ms, hline, hrest, ht⟩ := List.forall₂_cons_left_iff.mp hlines
  refine ⟨_, State.next?_of_pending ht, hline, hrest, ?_⟩
  rw [hstate, hs.frame]

end Layout

/-! ## Assemblies -/

theorem restyled_numberedFrom {V : SourceLine → Prop} {L L' : List String} (file : String)
    (chain : List String) (n : Nat) (h : List.Forall₂ Restyles L L')
    (stored : ∀ i text, L[i]? = some text → V ⟨file, i + n + 1, Text.chomp text, chain⟩ →
      L'[i]? = some text) :
    List.Forall₂ (SourceLine.Restyled V) (numberedFrom file chain n L)
      (numberedFrom file chain n L') := by
  induction h generalizing n with
  | nil => exact .nil
  | @cons text text' L L' first _ ih =>
    rw [numberedFrom_cons, numberedFrom_cons]
    refine .cons ⟨rfl, rfl, rfl, ?_, ?_⟩ (ih (n + 1) fun i text hi hV => ?_)
    · rw [SourceLine.content, stripComment_chomp, first.content, SourceLine.content,
        stripComment_chomp]
    · rintro (hraw | hV)
      · rw [SourceLine.keyword, SourceLine.content, stripComment_chomp] at hraw
        exact congrArg Text.chomp (first.stored hraw)
      · have htext := stored 0 text rfl (by rwa [Nat.zero_add])
        exact congrArg Text.chomp (Option.some.inj htext).symm
    · rw [← Nat.add_assoc, Nat.add_right_comm i n 1] at hV
      exact stored (i + 1) text hi hV

namespace Assembler

variable {a : Assembler} {fs : FileSystem} {src src' : Source} {file : String}
  {L L' : List String}

/-- A line belongs to a long string that a line of the first pass opens. -/
def Stores (a : Assembler) (fs : FileSystem) (src : Source) (l : SourceLine) : Prop :=
  ∃ visits s v, FirstPass a fs src visits s ∧ s.next? = some v ∧ l ∈ v.storedLines

/-- Every line that a first pass comes to is handled in the whole pass. -/
theorem FirstPass.mem_of_next? {visits ws : List Visit} {s t : State} {v : Visit}
    (first : FirstPass a fs src visits s) (next : s.next? = some v)
    (whole : FirstPass a fs src ws t) (done : t.cursor.pending = []) : v ∈ ws := by
  obtain ⟨read, defined, trace⟩ := first
  obtain ⟨read', defined', trace'⟩ := whole
  cases read.symm.trans read'
  cases defined.symm.trans defined'
  exact trace.mem_of_next? next trace' done

/-- States of two first passes that differ by comments and outer blanks correspond line by line. -/
theorem lockstep_restyled (a : Assembler) (fs : FileSystem) (src : Source) :
    Lockstep ⟨fs, a.directories⟩ ⟨fs, a.directories⟩ Halt.Agrees
      (fun s t => (∃ visits, FirstPass a fs src visits s) ∧ s.Restyled (a.Stores fs src) t) := by
  rintro s t ⟨⟨visits, first⟩, hs⟩
  cases next : s.next? with
  | none =>
    have hlines := hs.pending
    rw [State.next?_eq_none_iff.mp next, List.forall₂_nil_left_iff] at hlines
    exact .inl ⟨rfl, State.next?_eq_none_iff.mpr hlines⟩
  | some v =>
    obtain ⟨w, hw, hline, hstate⟩ := hs.next? next
    refine .inr ⟨v, w, rfl, hw, ?_⟩
    have hstep := step_restyled ⟨fs, a.directories⟩ hline hstate fun k hk =>
      ⟨visits, s, v, first, next, hk⟩
    generalize hx : step ⟨fs, a.directories⟩ v.line v.state = x at hstep ⊢
    generalize step ⟨fs, a.directories⟩ w.line w.state = y at hstep ⊢
    cases hstep with
    | error h => exact .error h
    | ok h =>
      obtain ⟨read, defined, trace⟩ := first
      exact .ok ⟨⟨_, read, defined, trace.concat next hx⟩, h⟩

/-- **Comments and outer blanks do not matter.** Let two sources have lines under the same file name
with the same contents, one by one, and the same texts where a line stores a string or belongs to a
long string. Then both are assembled to the same program, or both fail with the same cause and hint
at the same place. -/
theorem assemble_restyled (read : src.read fs = .ok (file, L))
    (read' : src'.read fs = .ok (file, L')) (restyles : List.Forall₂ Restyles L L')
    (stored : ∀ i text, L[i]? = some text →
      a.Stores fs src ⟨file, i + 1, Text.chomp text, [file]⟩ → L'[i]? = some text) :
    OutcomeRel Failure.Agrees Eq (a.assemble fs src).result (a.assemble fs src').result := by
  rw [assemble_result, assemble_result, read, read']
  change OutcomeRel _ _ (a.assembleLines fs file L).result (a.assembleLines fs file L').result
  rw [assembleLines_result, assembleLines_result, splice_empty, splice_empty]
  cases defined : ((defineAll a.defines.toList).exec .predefined).result with
  | error f => exact .error (.refl f)
  | ok symbols =>
    have hlines := restyled_numberedFrom file [file] 0 restyles stored
    have first : FirstPass a fs src [] (.start ⟨numberedFrom file [file] 0 L, 0⟩ symbols) :=
      ⟨read, defined, splice_empty file L ▸ .nil _⟩
    have hrun := run_rel (t := .start ⟨numberedFrom file [file] 0 L', 0⟩ symbols)
      (lockstep_restyled a fs src) ⟨⟨[], first⟩, hlines, rfl⟩
    have hbuild := build_rel (E := Failure.Agrees) (.refl _) hrun
    refine (hbuild.bind fun k k' hk => ?_).outcomeRel not_false
    obtain ⟨s, t, ⟨-, hs⟩, rfl, rfl⟩ := hk
    rw [hs.frame]
    exact Follows.same .refl _

/-- Other comments and blanks around a long string, whose own lines stay as they are. -/
theorem assemble_restyled_long :
    let L := [".long-string keep-newlines", "a # 1", ".end-long-string", "  NOP # 2", ".str #"]
    let L' := ["\t.long-string keep-newlines # 3", "a # 1", " .end-long-string#", "NOP", ".str #"]
    let a := new [] .empty
    let files := FileSystem.empty []
    List.Forall₂ Restyles L L' ∧
    ∃ p, (a.assemble files (.lines inputName L)).result = .ok p ∧
      (a.assemble files (.lines inputName L')).result = .ok p ∧
      p.words = [5, 97, 32, 35, 32, 49, 0x7000, 1, 35] := by
  intro L L' a files
  have hprogram : (a.assembleFor files 4 inputName L).map Program.words =
      some [5, 97, 32, 35, 32, 49, 0x7000, 1, 35] := by decide +kernel
  obtain ⟨p, hp, hwords⟩ := Option.map_eq_some_iff.mp hprogram
  have hok := assemble_eq_ok_of_assembleFor hp
  have hrestyles : List.Forall₂ Restyles L L' := by
    refine .cons ⟨?_, ?_⟩ (.cons ⟨?_, ?_⟩ (.cons ⟨?_, ?_⟩ (.cons ⟨?_, ?_⟩
      (.cons ⟨?_, ?_⟩ .nil)))) <;> decide +kernel
  -- one line belongs to a long string, and it is the same in both sources
  have hreach : (a.reach files (.lines inputName L) 4).map (fun r =>
      (r.2.cursor.pending, r.1.flatMap Visit.storedLines)) =
      some ([], [⟨inputName, 2, "a # 1", [inputName]⟩]) := by decide +kernel
  obtain ⟨⟨ws, t⟩, hws, hlines⟩ := Option.map_eq_some_iff.mp hreach
  obtain ⟨done, hlines⟩ := Prod.mk.inj hlines
  have h := @assemble_restyled a files (.lines inputName L) (.lines inputName L') inputName L L' rfl
    rfl hrestyles
    (by
      rintro i text htext ⟨visits, s, v, first, next, hmem⟩
      have hv := first.mem_of_next? next (firstPass_of_reach hws) done
      have hline := List.mem_flatMap.mpr ⟨v, hv, hmem⟩
      rw [hlines, List.mem_singleton, SourceLine.mk.injEq] at hline
      obtain rfl : i = 1 := by omega
      exact htext)
  rw [hok] at h
  generalize (a.assemble files (.lines inputName L')).result = result at h ⊢
  cases h with
  | ok h => exact ⟨hrestyles, p, hok, congrArg Except.ok h.symm, hwords⟩

end Assembler

end NibbleAsm
