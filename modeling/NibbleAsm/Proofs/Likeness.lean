import NibbleAsm.Proofs.Correspondence
import NibbleAsm.Proofs.Definitions

/-!
# Lines that are alike

What a line does depends on its text. Its file and the files that led to it only matter where the
line names another file, and its number matters nowhere: they show in the places of commands and
failures. So lines with the same texts lead through states that are alike to outcomes that are
alike. The second run may have further lines behind; then a failure of the first run is excused,
since what is not closed there may be closed behind.

## Main definitions

* `SourceLine.Alike`: lines that do the same
* `Failure.Alike`, `Placed.Alike`: failures and commands that are equal but for their places
* `LinesAlike extra`: lines that are alike, with further lines behind the second
* `State.Alike`: states that are alike, but for a part of their commands

## Main results

* `State.Alike.corresponds`, `step_follows`: lines that are alike have effects that are alike
* `Trace.follows`: a trace goes through with further lines behind
* `lockstep_alike`: states that are alike correspond line by line
-/

namespace NibbleAsm

variable {α : Type} {excused : Prop}

/-- Lines with the same text. If they name a file, they also have the same file and the same files
that led to them, from where the name is followed. -/
structure SourceLine.Alike (l m : SourceLine) : Prop where
  text : l.text = m.text
  place : (l.file = m.file ∧ l.chain = m.chain) ∨ (l.keyword ≠ ".include" ∧ l.keyword ≠ ".copy")

namespace SourceLine.Alike

variable {l m : SourceLine}

theorem refl (l : SourceLine) : l.Alike l :=
  ⟨rfl, .inl ⟨rfl, rfl⟩⟩

theorem content (h : l.Alike m) : l.content = m.content :=
  congrArg stripComment h.text

end SourceLine.Alike

/-- Failures with the same cause and hint, or the same fault. -/
inductive Failure.Alike : Failure → Failure → Prop
  | error {d e : Diagnostic} (cause : d.cause = e.cause) (hint : d.hint = e.hint) :
      Alike (.error d) (.error e)
  | fault (f : Fault) : Alike (.fault f) (.fault f)
  | unfinished : Alike .unfinished .unfinished

namespace Failure.Alike

variable {f g : Failure}

theorem refl (f : Failure) : f.Alike f := by
  cases f with
  | error d => exact .error rfl rfl
  | fault f => exact .fault f
  | unfinished => exact .unfinished

theorem symm (h : f.Alike g) : g.Alike f := by
  cases h with
  | error cause hint => exact .error cause.symm hint.symm
  | fault f => exact .fault f
  | unfinished => exact .unfinished

theorem trans {k : Failure} (h : f.Alike g) (h' : g.Alike k) : f.Alike k := by
  cases h with
  | error cause hint =>
    cases h' with
    | error cause' hint' => exact .error (cause.trans cause') (hint.trans hint')
  | fault => exact h'
  | unfinished => exact h'

/-- Placing a failure changes neither its cause nor its hint. -/
theorem located (f : Failure) (l : Location) (text : Option String) :
    (f.locate l text).Alike f := by
  cases f with
  | error d =>
    change Failure.Alike (.error (d.locate l text)) (.error d)
    unfold Diagnostic.locate
    cases d.location <;> exact .error rfl rfl
  | fault f => exact .fault f
  | unfinished => exact .unfinished

theorem locate (h : f.Alike g) (l m : Location) (t u : Option String) :
    (f.locate l t).Alike (g.locate m u) :=
  ((located f l t).trans h).trans (located g m u).symm

end Failure.Alike

theorem follows_failAt {β : Type} {R : α → β → Prop} (cause : Cause) (l m : Option Location) :
    Follows excused Failure.Alike R (failAt cause l) (failAt cause m) :=
  .error (.error rfl rfl)

/-! ## Files -/

theorem Search.candidates_congr {l m : Location} (search : Search) (name : String)
    (h : l.file = m.file) : search.candidates name l = search.candidates name m := by
  cases l
  cases m
  cases h
  rfl

/-- A name is followed from the file that a line stands in, whatever the number of the line. -/
theorem follows_find {l m : SourceLine} (search : Search) (name : String) (h : l.file = m.file) :
    Follows excused Failure.Alike Eq (search.find name l.location)
      (search.find name m.location) := by
  unfold Search.find
  rw [Search.candidates_congr (l := l.location) (m := m.location) search name h]
  split
  · exact .ok rfl
  · exact follows_failAt _ _ _
  · exact .error (.fault _)

theorem follows_readBytes (fs : FileSystem) (path : FilePath) (l m : Option Location) :
    Follows excused Failure.Alike Eq (Search.readBytes fs path l) (Search.readBytes fs path m) := by
  unfold Search.readBytes
  split
  · exact .ok rfl
  · split
    · exact .error (.fault _)
    · exact follows_failAt _ _ _

theorem follows_readLines (fs : FileSystem) (path : FilePath) (l m : Option Location) :
    Follows excused Failure.Alike Eq (Search.readLines fs path l) (Search.readLines fs path m) := by
  unfold Search.readLines
  refine (follows_readBytes fs path l m).bind_eq fun bytes => ?_
  split
  · exact .ok rfl
  · exact follows_failAt _ _ _

theorem follows_readWords (fs : FileSystem) (path : FilePath) (l m : Option Location) :
    Follows excused Failure.Alike Eq (Search.readWords fs path l) (Search.readWords fs path m) := by
  unfold Search.readWords
  refine (follows_readBytes fs path l m).bind_eq fun bytes => ?_
  exact .same .refl _

/-! ## Lines still to be read -/

/-- Lines that are alike one by one, with the lines `extra` behind the second. -/
inductive LinesAlike (extra : List SourceLine) : List SourceLine → List SourceLine → Prop
  | nil : LinesAlike extra [] extra
  | cons {l m : SourceLine} {ls ms : List SourceLine} (first : l.Alike m)
      (rest : LinesAlike extra ls ms) : LinesAlike extra (l :: ls) (m :: ms)

/-- The same was read, from as many lines, and the lines left are alike. -/
structure Taken.Alike (extra : List SourceLine) (t u : Taken α) : Prop where
  value : t.value = u.value
  rest : LinesAlike extra t.rest u.rest

section Lines

variable {extra ls ms : List SourceLine}

theorem LinesAlike.append_self (ls extra : List SourceLine) :
    LinesAlike extra ls (ls ++ extra) := by
  induction ls with
  | nil => exact .nil
  | cons l ls ih => exact .cons (.refl l) ih

/-- Identical lines in front of lines that are alike. -/
theorem LinesAlike.prepend (h : LinesAlike extra ls ms) (front : List SourceLine) :
    LinesAlike extra (front ++ ls) (front ++ ms) := by
  induction front with
  | nil => exact h
  | cons l _ ih => exact .cons (.refl l) ih

/-- An array is read alike, unless it is not closed in the first lines. -/
theorem follows_readArray (h : LinesAlike extra ls ms) (l m : SourceLine) (text : String)
    (elements : Array Operand) (count : Nat) :
    Follows (extra ≠ []) Failure.Alike (Taken.Alike extra) (readArray l text elements count ls)
      (readArray m text elements count ms) := by
  induction h generalizing l m text elements count with
  | nil =>
    unfold readArray
    rcases arrayLine elements text with f | ⟨more, _ | _⟩
    · exact .error ((Failure.Alike.refl f).locate _ _ _ _)
    · -- still open where the first lines end: a failure there, which lines behind may mend
      cases extra with
      | nil => exact .error (.refl _)
      | cons => exact .excused (List.cons_ne_nil _ _)
    · exact .ok ⟨rfl, .nil⟩
  | @cons next next' ls ms first rest ih =>
    unfold readArray
    rcases arrayLine elements text with f | ⟨more, _ | _⟩
    · exact .error ((Failure.Alike.refl f).locate _ _ _ _)
    · -- still open, and both go on in lines with the same content
      change Follows _ _ _ (readArray next next.content more (count + 1) ls)
        (readArray next' next'.content more (count + 1) ms)
      rw [first.content]
      exact ih _ _ _ _ _
    · exact .ok ⟨rfl, .cons first rest⟩

/-- A long string is read alike, unless it is not closed in the first lines. -/
theorem follows_readLongString (h : LinesAlike extra ls ms) (body : List String) (count : Nat) :
    Follows (extra ≠ []) Failure.Alike (Taken.Alike extra) (readLongString body count ls)
      (readLongString body count ms) := by
  induction h generalizing body count with
  | nil =>
    cases extra with
    | nil => exact .error (.refl _)
    | cons => exact .excused (List.cons_ne_nil _ _)
  | @cons next next' ls ms first rest ih =>
    rw [readLongString, readLongString, first.content, first.text]
    split
    · exact .ok ⟨rfl, rest⟩
    · exact ih _ _

end Lines

/-! ## States -/

/-- Commands that are equal but for their places in the source. -/
structure Placed.Alike (q r : Placed) : Prop where
  title : q.title = r.title
  command : q.command = r.command
  size : q.size = r.size
  address : q.address = r.address
  source : q.source = r.source

namespace Layout

variable {search : Search} {extra : List SourceLine} {A B : List Placed} {l m : SourceLine}
  {s s' t : State}

/-- Ends of a run with failures that are alike, whatever was noted before. -/
def Halt.Alike (e f : Halt) : Prop :=
  e.failure.Alike f.failure

/-- States that are alike: the lines to be read, up to the lines `extra` behind the second; the
values of the symbols; the current address; and the commands behind `A` in the first and behind `B`
in the second. -/
structure State.Alike (extra : List SourceLine) (A B : List Placed) (s t : State) : Prop where
  pending : LinesAlike extra s.cursor.pending t.cursor.pending
  values : s.symbols.values = t.symbols.values
  index : s.index = t.index
  placed : ∃ qs rs, s.placed.toList = A ++ qs ∧ t.placed.toList = B ++ rs ∧
    List.Forall₂ Placed.Alike qs rs

theorem follows_define (h : s.Alike extra A B t) (name : String) (value : Int)
    (loc loc' : Location) :
    Follows excused Halt.Alike (State.Alike extra A B) (s.define name value loc)
      (t.define name value loc') := by
  cases hcheck : SymbolTable.checkValue name value with
  | error f =>
    rw [State.define_of_error hcheck, State.define_of_error hcheck]
    exact .error (Failure.Alike.refl f)
  | ok v =>
    rw [State.define_of_ok hcheck, State.define_of_ok hcheck]
    refine .ok ⟨h.pending, ?_, h.index, h.placed⟩
    rw [State.bound, State.bound, SymbolTable.values_insert, SymbolTable.values_insert, h.values]

theorem follows_place (hl : l.content = m.content) (h : s.Alike extra A B t) (title : String)
    (command : Command) :
    Follows excused Halt.Alike (State.Alike extra A B) (s.place l title command)
      (t.place m title command) := by
  unfold State.place
  dsimp only
  rw [← h.index, ← hl]
  split
  · exact .error (Failure.Alike.refl _)
  · refine .ok ⟨h.pending, h.values, rfl, ?_⟩
    obtain ⟨qs, rs, hq, hr, hqr⟩ := h.placed
    -- the new commands differ in their locations only
    refine ⟨qs ++ [⟨title, command, command.size, s.index, l.location, l.content⟩],
      rs ++ [⟨title, command, command.size, s.index, m.location, l.content⟩], ?_, ?_,
      List.rel_append hqr (.cons ⟨rfl, rfl, rfl, rfl, rfl⟩ .nil)⟩
    · rw [Array.toList_push, hq, List.append_assoc]
    · rw [Array.toList_push, hr, List.append_assoc]

/-- What has been taken from lines that are alike leaves states that are alike. -/
theorem State.Alike.takenRel (h : s.Alike extra A B t) {a b : Taken α} (hab : a.Alike extra b) :
    TakenRel (State.Alike extra A B) s t a b :=
  ⟨hab.value, hab.rest, h.values, h.index, h.placed⟩

/-! ## Lines -/

/-- Lines that are alike correspond, in states that are alike. -/
theorem State.Alike.corresponds (search : Search) (hl : l.Alike m) (h : s.Alike extra A B t) :
    Corresponds search (extra ≠ []) Failure.Alike (State.Alike extra A B) l m s t where
  refl := .refl
  locate _ _ hfg := hfg.locate _ _ _ _
  content := hl.content
  text _ := hl.text
  lookup := SymbolTable.lookup_congr h.values
  index := h.index
  array text := (follows_readArray h.pending l m text #[] 0).mono fun _ _ => h.takenRel
  longString _ := (follows_readLongString h.pending [] 0).mono fun _ _ => h.takenRel
  find hkeyword name := by
    -- the same file is found, from the same file
    have hplace := hl.place.resolve_right fun hne => hkeyword.elim hne.1 hne.2
    exact follows_find search name hplace.1
  isOpen hkeyword path := by
    have hplace := hl.place.resolve_right fun hne => hne.1 hkeyword
    simp only [Search.isOpen, Search.openFiles, hplace.2]
  readLines path := follows_readLines _ _ _ _
  readWords path := follows_readWords _ _ _ _
  state := h
  define name value := follows_define h _ _ _ _
  place _ _ h' title command := follows_place hl.content h' _ _
  splice hkeyword note path texts := by
    have hplace := hl.place.resolve_right fun hne => hne.1 hkeyword
    refine ⟨?_, h.values, h.index, h.placed⟩
    change LinesAlike extra (numberLines path l.chain texts ++ s.cursor.pending)
      (numberLines path m.chain texts ++ t.cursor.pending)
    rw [hplace.2]
    exact h.pending.prepend _
  copy _ _ _ := ⟨h.pending, h.values, h.index, h.placed⟩

/-- **Lines that are alike have effects that are alike.** -/
theorem step_follows (hl : l.Alike m) (h : s.Alike extra A B t) :
    Follows (extra ≠ []) Halt.Alike (State.Alike extra A B) (step search l s) (step search m t) :=
  (h.corresponds search hl).step

/-! ## Runs -/

theorem State.Alike.next? {v : Visit} (h : s.Alike extra A B t) (next : s.next? = some v) :
    ∃ w, t.next? = some w ∧ v.line.Alike w.line ∧ v.state.Alike extra A B w.state := by
  obtain ⟨hpending, hstate⟩ := State.pending_of_next? next
  have hlines := h.pending
  rw [hpending] at hlines
  generalize hms : t.cursor.pending = ms at hlines
  cases hlines with
  | cons first rest =>
    refine ⟨_, State.next?_of_pending hms, first, rest, ?_, ?_, ?_⟩
    · rw [hstate]
      exact h.values
    · rw [hstate]
      exact h.index
    · rw [hstate]
      exact h.placed

/-- **A trace goes through with further lines behind**, and leads to a state that is alike. -/
theorem Trace.follows {vs : List Visit} (trace : Trace search s vs s') (h : s.Alike extra A B t) :
    ∃ ws t', Trace search t ws t' ∧ s'.Alike extra A B t' := by
  refine trace.simulate (fun h next done => ?_) h
  -- no line of the trace fails, so no failure is there to be excused
  obtain ⟨w, hw, hline, hstate⟩ := h.next? next
  obtain ⟨mid', hmid, halike⟩ := (step_follows hline hstate).exists_of_ok done
  exact ⟨w, mid', hw, hmid, halike⟩

/-- States that are alike, with no further lines, correspond line by line. -/
theorem lockstep_alike : Lockstep search search Halt.Alike (State.Alike [] A B) := by
  intro s t h
  cases hs : s.next? with
  | none =>
    have hlines := h.pending
    rw [State.next?_eq_none_iff.mp hs] at hlines
    generalize hms : t.cursor.pending = ms at hlines
    cases hlines
    exact .inl ⟨rfl, State.next?_eq_none_iff.mpr hms⟩
  | some v =>
    obtain ⟨w, hw, hline, hstate⟩ := h.next? hs
    exact .inr ⟨v, w, rfl, hw, (step_follows hline hstate).outcomeRel fun hne => hne rfl⟩

end Layout

end NibbleAsm
