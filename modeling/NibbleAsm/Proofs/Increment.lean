import NibbleAsm.Proofs.Inclusion

/-!
# The first pass is incremental

A line does what it does whatever has been placed and noted before, and whatever lines stand behind
those that it takes. So a state can be set into a frame, which holds earlier commands and notes and
further lines behind, and each line leads from framed states to framed states. The one exception is
an array or a long string that is not closed where the lines end: it may be closed behind.

## Main definitions

* `Failure.isUnclosed`: the failures that further lines may mend
* `Frame`, `State.within`, `Halt.within`: what is around a state, and a state or a failure inside it
* `Framed f g x y`: the operation `y` is what `x` becomes inside the frame `f`

## Main results

* `directive_within`, `step_within`: a line inside a frame has the same effect
* `Trace.within`: a trace goes through inside a frame
* `run_within`: a run with nothing behind it has the same outcome inside a frame
* `run_append`: the run of lines behind other lines goes on where these have ended, or fails as they
  do
-/

namespace NibbleAsm

variable {α β γ δ : Type}

/-- Whether a failure says that an array or a long string is not closed where the lines end. -/
def Failure.isUnclosed : Failure → Bool
  | error d =>
    match d.cause with
    | .arrayNotClosed | .longStringNotClosed => true
    | _ => false
  | fault _ | unfinished => false

theorem Failure.isUnclosed_locate (f : Failure) (location : Location) (line : Option String) :
    (f.locate location line).isUnclosed = f.isUnclosed := by
  cases f with
  | error d =>
    change Failure.isUnclosed (.error (d.locate location line)) = Failure.isUnclosed (.error d)
    unfold Diagnostic.locate
    cases d.location <;> rfl
  | fault | unfinished => rfl

/-! ## Lines with further lines behind -/

/-- What was read, with further lines behind those that are left. -/
def Taken.before (behind : List SourceLine) (taken : Taken α) : Taken α :=
  { taken with rest := taken.rest ++ behind }

/-- Further lines have no part in an array that is closed before them, or that breaks before. -/
theorem readArray_append (behind : List SourceLine) (line : SourceLine) (text : String)
    (elements : Array Operand) (count : Nat) (pending : List SourceLine) :
    readArray line text elements count pending = fail .arrayNotClosed ∨
      readArray line text elements count (pending ++ behind) =
        (readArray line text elements count pending).map (Taken.before behind) := by
  induction pending generalizing line text elements count with
  | nil =>
    unfold readArray
    rcases arrayLine elements text with f | ⟨more, _ | _⟩
    · exact .inr rfl
    · exact .inl rfl
    · exact .inr rfl
  | cons next rest ih =>
    rw [List.cons_append]
    unfold readArray
    rcases arrayLine elements text with f | ⟨more, _ | _⟩
    · exact .inr rfl
    · exact ih next next.content more (count + 1)
    · exact .inr rfl

/-- Further lines have no part in a long string that is closed before them. -/
theorem readLongString_append (behind : List SourceLine) (body : List String) (count : Nat)
    (pending : List SourceLine) :
    readLongString body count pending = fail .longStringNotClosed ∨
      readLongString body count (pending ++ behind) =
        (readLongString body count pending).map (Taken.before behind) := by
  induction pending generalizing body count with
  | nil => exact .inl rfl
  | cons next rest ih =>
    rw [List.cons_append, readLongString, readLongString]
    split
    · exact .inr rfl
    · exact ih _ _

namespace Layout

/-! ## Frames -/

/-- What is around a state: lines behind those to be read, and the lines, commands and notes before
it. -/
structure Frame where
  behind : List SourceLine
  taken : Nat
  placed : Array Placed
  log : Array Note

/-- A state inside a frame. -/
def State.within (f : Frame) (s : State) : State where
  cursor := ⟨s.cursor.pending ++ f.behind, f.taken + s.cursor.taken⟩
  symbols := s.symbols
  index := s.index
  placed := f.placed ++ s.placed
  log := f.log ++ s.log

/-- A failure inside a frame. -/
def Halt.within (f : Frame) (e : Halt) : Halt :=
  { e with log := f.log ++ e.log }

/-- A visit inside a frame. -/
def Visit.within (f : Frame) (v : Visit) : Visit :=
  { v with state := v.state.within f }

/-- The outcome of a run inside a frame. -/
def Frame.outcome (f : Frame) : Except Halt State → Except Halt State
  | .ok s => .ok (s.within f)
  | .error e => .error (e.within f)

/-- An operation is what another becomes inside a frame: its value is changed by `g` and its failure
stays the same. Where the frame has lines behind, nothing is said about an operation that fails for
want of lines. -/
inductive Framed (f : Frame) (g : α → β) : Except Halt α → Except Halt β → Prop
  | ok (a : α) : Framed f g (.ok a) (.ok (g a))
  | error (e : Halt) : Framed f g (.error e) (.error (e.within f))
  | unclosed {e : Halt} {y : Except Halt β} (more : f.behind ≠ [])
      (h : e.failure.isUnclosed = true) : Framed f g (.error e) y

namespace Framed

variable {f : Frame} {g : α → β} {k : γ → δ} {x : Except Halt α} {y : Except Halt β}

theorem bind {F : α → Except Halt γ} {G : β → Except Halt δ} (h : Framed f g x y)
    (hF : ∀ a, Framed f k (F a) (G (g a))) : Framed f k (x >>= F) (y >>= G) := by
  cases h with
  | ok a => exact hF a
  | error e => exact .error e
  | unclosed more h => exact .unclosed more h

/-- The same value on both sides is bound once. -/
theorem bind_id {y : Except Halt α} {F : α → Except Halt γ} {G : α → Except Halt δ}
    (h : Framed f id x y) (hF : ∀ a, Framed f k (F a) (G a)) :
    Framed f k (x >>= F) (y >>= G) :=
  h.bind hF

theorem of_ok {a : α} (h : Framed f g x y) (hx : x = .ok a) : y = .ok (g a) := by
  subst hx
  cases h
  rfl

theorem of_error {e : Halt} (h : Framed f g x y) (hx : x = .error e)
    (closed : e.failure.isUnclosed = false) : y = .error (e.within f) := by
  subst hx
  cases h with
  | error => rfl
  | unclosed _ h => exact absurd (closed.symm.trans h) Bool.false_ne_true

end Framed

section Operations

variable {f : Frame} {search : Search} {line : SourceLine} {s : State} {g : α → β}

theorem within_note (f : Frame) (s : State) (n : Note) :
    (s.note n).within f = (s.within f).note n := by
  simp [State.note, State.within]

theorem within_take (f : Frame) (s : State) (taken : Taken α) :
    (s.take taken).within f = (s.within f).take (taken.before f.behind) := by
  simp [State.take, State.within, Taken.before, Nat.add_assoc]

theorem within_splice (f : Frame) (s : State) (file : String) (texts : List String)
    (parent : Option SourceLine) :
    State.within f { s with cursor := s.cursor.splice file texts parent } =
      { s.within f with cursor := (s.within f).cursor.splice file texts parent } := by
  simp [State.within, Cursor.splice]

theorem within_index (f : Frame) (s : State) : (s.within f).index = s.index := rfl

theorem framed_lift (f : Frame) (s : State) (x : Except Failure α) :
    Framed f id (s.lift x) ((s.within f).lift x) := by
  cases x with
  | ok a => exact .ok a
  | error => exact .error _

/-- An operation on the lines to be read, of which there are more inside the frame. -/
theorem framed_lift_taken {x y : Except Failure (Taken α)} (cause : Cause)
    (unclosed : (Failure.ofCause cause).isUnclosed = true) (nothing : f.behind = [] → y = x)
    (h : x = fail cause ∨ y = x.map (Taken.before f.behind)) :
    Framed f (Taken.before f.behind) (s.lift x) ((s.within f).lift y) := by
  by_cases hbehind : f.behind = []
  · have hid : (Taken.before f.behind : Taken α → Taken α) = id := by
      funext taken
      simp [Taken.before, hbehind]
    rw [nothing hbehind, hid]
    exact framed_lift f s x
  · rcases h with rfl | rfl
    · exact .unclosed hbehind unclosed
    · cases x with
      | ok a => exact .ok a
      | error => exact .error _

theorem framed_fail (f : Frame) (g : α → β) (s : State) (cause : Cause) :
    Framed f g (s.fail cause) ((s.within f).fail cause) :=
  .error _

theorem framed_define (f : Frame) (s : State) (name : String) (value : Int)
    (location : Location) :
    Framed f (State.within f) (s.define name value location)
      ((s.within f).define name value location) := by
  cases h : SymbolTable.checkValue name value with
  | error e =>
    rw [State.define_of_error h, State.define_of_error h]
    exact .error _
  | ok v =>
    have hlog (notes : List Note) : f.log ++ s.log ++ notes = f.log ++ (s.log ++ notes) :=
      Array.toList_inj.mp (by simp)
    rw [State.define_of_ok h, State.define_of_ok h]
    simp only [State.bound, State.within, hlog]
    exact .ok (s.bound name v location)

theorem framed_place (f : Frame) (s : State) (line : SourceLine) (title : String)
    (command : Command) :
    Framed f (State.within f) (s.place line title command)
      ((s.within f).place line title command) := by
  unfold State.place
  dsimp only
  rw [within_index]
  split
  · exact framed_fail f _ s _
  · have hplaced : ∀ q, (s.within f).placed.push q = f.placed ++ s.placed.push q := by
      intro q
      simp [State.within]
    rw [hplaced]
    exact .ok _

/-! ## Directives and lines -/

/-- **A directive inside a frame has the same effect**, unless it looks for further lines. -/
theorem directive_within (f : Frame) (search : Search) (line : SourceLine) (d : Directive)
    (args : String) (s : State) :
    Framed f (fun p => (p.1, p.2.within f)) (directive search line d args s)
      (directive search line d args (s.within f)) := by
  -- a directive looks at the symbols, the current address and the lines to be read; of these only
  -- the lines are different inside the frame
  unfold directive
  cases d with
  | set =>
    dsimp only
    refine (framed_lift f s _).bind_id fun ⟨name, text⟩ => ?_
    split
    · exact framed_fail f _ s _
    · refine (framed_lift f s _).bind_id fun operand => ?_
      refine (framed_lift f s _).bind_id fun value => ?_
      exact (framed_define f s _ _ _).bind fun t => .ok (Command.nothing, t)
  | word =>
    dsimp only
    refine (framed_lift f s _).bind_id fun text => ?_
    refine (framed_lift f s _).bind_id fun operand => ?_
    exact .ok (Command.values [operand], s)
  | array =>
    dsimp only
    split
    · next text _ =>
      refine (framed_lift_taken .arrayNotClosed rfl ?_ (readArray_append _ _ _ _ _ _)).bind ?_
      · intro hbehind
        simp [hbehind]
      · intro taken
        rw [← within_take]
        exact .ok (Command.values taken.value, s.take taken)
    · exact framed_fail f _ s _
  | fillArray =>
    dsimp only
    refine (framed_lift f s _).bind_id fun ⟨count, text⟩ => ?_
    refine (framed_lift f s _).bind_id fun counter => ?_
    refine (framed_lift f s _).bind_id fun number => ?_
    refine (framed_lift f s _).bind_id fun operand => ?_
    exact .ok (Command.fill _ _, s)
  | move =>
    dsimp only
    refine (framed_lift f s _).bind_id fun text => ?_
    refine (framed_lift f s _).bind_id fun operand => ?_
    refine (framed_lift f s _).bind_id fun target => ?_
    rw [within_index]
    split
    · exact framed_fail f _ s _
    · exact .ok (Command.zeros _, s)
  | string =>
    dsimp only
    refine (framed_lift f s _).bind_id fun words => ?_
    exact .ok (Command.block words, s)
  | longString =>
    dsimp only
    refine (framed_lift f s _).bind_id fun mode => ?_
    refine (framed_lift f s _).bind_id fun separator => ?_
    refine (framed_lift_taken .longStringNotClosed rfl ?_ (readLongString_append _ _ _ _)).bind ?_
    · intro hbehind
      simp [hbehind]
    · intro taken
      refine (framed_lift f s _).bind_id fun words => ?_
      rw [← within_take]
      exact .ok (Command.block words, s.take taken)
  | endLongString => exact framed_fail f _ s _
  | includeFile =>
    dsimp only
    refine (framed_lift f s _).bind_id fun name => ?_
    refine (framed_lift f s _).bind_id fun path => ?_
    rw [← within_note]
    refine (framed_lift f (s.note _) _).bind_id fun isOpen => ?_
    split
    · exact framed_fail f _ (s.note _) _
    · refine (framed_lift f (s.note _) _).bind_id fun texts => ?_
      rw [← within_splice, ← within_note]
      exact .ok (Command.nothing, _)
  | copy =>
    dsimp only
    refine (framed_lift f s _).bind_id fun name => ?_
    refine (framed_lift f s _).bind_id fun path => ?_
    rw [← within_note]
    refine (framed_lift f (s.note _) _).bind_id fun words => ?_
    rw [← within_note]
    exact .ok (Command.block words, _)

theorem label_within (f : Frame) (line : SourceLine) (content : String) (s : State) :
    Framed f (State.within f) (label line content s) (label line content (s.within f)) := by
  unfold label
  rw [within_index]
  split
  · exact framed_fail f _ s _
  · split
    · exact framed_fail f _ s _
    · split
      · exact framed_fail f _ s _
      · exact framed_define f s _ _ _

theorem statement_within (f : Frame) (search : Search) (line : SourceLine) (content : String)
    (s : State) :
    Framed f (State.within f) (statement search line content s)
      (statement search line content (s.within f)) := by
  unfold statement
  dsimp only
  split
  · exact label_within f _ _ _
  · split
    · split
      · exact framed_fail f _ s _
      · exact (directive_within f _ _ _ _ _).bind fun p => framed_place f p.2 _ _ _
    · exact (framed_lift f s _).bind_id fun command => framed_place f s _ _ _

/-- **A line inside a frame has the same effect**, unless it looks for further lines. -/
theorem step_within (f : Frame) (search : Search) (line : SourceLine) (s : State) :
    Framed f (State.within f) (step search line s) (step search line (s.within f)) := by
  have h := statement_within f search line line.content s
  unfold step
  dsimp only
  split
  · exact .ok s
  · generalize statement search line line.content s = x at h ⊢
    generalize statement search line line.content (s.within f) = y at h ⊢
    cases h with
    | ok t => exact .ok t
    | error e => exact .error (e.locate line)
    | unclosed more h => exact .unclosed more ((Failure.isUnclosed_locate _ _ _).trans h)

end Operations

/-! ## Runs -/

section Runs

variable {f : Frame} {search : Search} {s s' : State} {v : Visit} {vs : List Visit}

theorem next?_within (next : s.next? = some v) : (s.within f).next? = some (v.within f) := by
  obtain ⟨hpending, hstate⟩ := State.pending_of_next? next
  have hwithin : (s.within f).cursor.pending = v.line :: (v.state.cursor.pending ++ f.behind) := by
    simp [State.within, hpending]
  rw [State.next?_of_pending hwithin, Visit.within, hstate]
  rfl

/-- **A trace goes through inside a frame.** -/
theorem Trace.within (f : Frame) (h : Trace search s vs s') :
    Trace search (s.within f) (vs.map (Visit.within f)) (s'.within f) := by
  induction h with
  | nil => exact .nil _
  | cons next done _ ih =>
    exact .cons (next?_within next) ((step_within f search _ _).of_ok done) ih

/-- **A run with nothing behind it has the same outcome inside a frame.** -/
theorem run_within (f : Frame) (alone : f.behind = []) (s : State) :
    (s.within f).run search = (s.run search).map f.outcome := by
  have hlock : Lockstep search search (fun e e' => e' = e.within f)
      (fun s t => t = s.within f) := by
    rintro s _ rfl
    cases hs : s.next? with
    | none =>
      refine .inl ⟨rfl, State.next?_eq_none_iff.mpr ?_⟩
      simp [State.within, State.next?_eq_none_iff.mp hs, alone]
    | some v =>
      refine .inr ⟨v, v.within f, rfl, next?_within hs, ?_⟩
      have h := step_within f search v.line v.state
      change OutcomeRel _ _ _ (step search v.line (v.state.within f))
      generalize step search v.line v.state = x at h ⊢
      generalize step search v.line (v.state.within f) = y at h ⊢
      cases h with
      | ok => exact .ok rfl
      | error => exact .error rfl
      | unclosed more => exact absurd alone more
  have hrel := run_rel hlock (s := s) rfl
  generalize s.run search = x at hrel ⊢
  generalize (s.within f).run search = y at hrel ⊢
  cases hrel with
  | none => rfl
  | some h =>
    cases h with
    | ok h => rw [h]; rfl
    | error h => rw [h]; rfl

/-- **The first pass is incremental.** Let lines `A` stand before lines `B` in a file. If the run of
`A` alone succeeds, the run of both is that of the lines of `B`, with their own numbers, from the
symbols and the address that `A` has led to, and behind what was placed and noted for `A`. If the
run of `A` fails, and not for want of further lines, the run of both fails in the same way. -/
theorem run_append (search : Search) (symbols : SymbolTable) (file : String) (A B : List String) :
    (∀ s, (State.start (Cursor.empty.splice file A none) symbols).run search = some (.ok s) →
      (State.start (Cursor.empty.splice file (A ++ B) none) symbols).run search =
        (State.run search ⟨⟨numberedFrom file [file] A.length B, 0⟩, s.symbols, s.index, #[],
          #[]⟩).map (Frame.outcome ⟨[], s.cursor.taken, s.placed, s.log⟩)) ∧
    ∀ e, (State.start (Cursor.empty.splice file A none) symbols).run search = some (.error e) →
      e.failure.isUnclosed = false →
      (State.start (Cursor.empty.splice file (A ++ B) none) symbols).run search =
        some (.error e) := by
  -- the lines `B` stand behind the run of `A`, and before its end that is all they do
  let behind : Frame := ⟨numberedFrom file [file] A.length B, 0, #[], #[]⟩
  have hstart : State.start (Cursor.empty.splice file (A ++ B) none) symbols =
      (State.start (Cursor.empty.splice file A none) symbols).within behind := by
    rw [splice_empty, splice_empty, numberedFrom_append]
    simp [State.start, State.within, behind]
  rw [hstart]
  constructor
  · intro s hs
    obtain ⟨vs, trace, done⟩ := run_eq_ok_iff.mp hs
    rw [(trace.within behind).run_eq, ← run_within _ rfl]
    congr 1
    simp [State.within, behind, done]
  · intro e he closed
    obtain ⟨vs, mid, v, trace, next, failed⟩ := run_eq_error_iff.mp he
    have hfailed := (step_within behind search v.line v.state).of_error failed closed
    rw [(trace.within behind).run_eq, run_of_step_error (next?_within next) hfailed]
    simp [Halt.within, behind]

/-- Lines behind a label and an array, and behind a line that fails. -/
theorem run_append_label :
    let search : Search := ⟨.empty [], []⟩
    let start := fun texts : List String =>
      State.start (Cursor.empty.splice "f" texts none) .predefined
    (∃ s t, (start ["(a)", ".array [1", "2]"]).run search = some (.ok s) ∧ s.index = 2 ∧
      State.run search ⟨⟨numberedFrom "f" ["f"] 3 [".word a"], 0⟩, s.symbols, s.index, #[], #[]⟩ =
        some (.ok t) ∧ t.index = 3 ∧
      (start (["(a)", ".array [1", "2]"] ++ [".word a"])).run search =
        some (.ok (t.within ⟨[], s.cursor.taken, s.placed, s.log⟩))) ∧
    ∃ e, (start [".word"]).run search = some (.error e) ∧ e.failure.isUnclosed = false ∧
      (start ([".word"] ++ ["(a)"])).run search = some (.error e) := by
  intro search start
  have hA : ((runFor search 3 (start ["(a)", ".array [1", "2]"])).bind Except.toOption).bind
      (fun s => ((runFor search 2 ⟨⟨numberedFrom "f" ["f"] 3 [".word a"], 0⟩, s.symbols, s.index,
        #[], #[]⟩).bind Except.toOption).map fun t => (s.index, t.index)) = some (2, 3) := by
    decide +kernel
  have hfail : (runFor search 2 (start [".word"])).map (fun r =>
      (r.mapError (·.failure.isUnclosed)).map fun _ => ()) = some (.error false) := by
    decide +kernel
  constructor
  · obtain ⟨s, hs, h⟩ := Option.bind_eq_some_iff.mp hA
    obtain ⟨r, hr, hs⟩ := Option.bind_eq_some_iff.mp hs
    obtain ⟨t, ht, hindex⟩ := Option.map_eq_some_iff.mp h
    obtain ⟨r', hr', ht⟩ := Option.bind_eq_some_iff.mp ht
    rw [toOption_eq_some.mp hs] at hr
    rw [toOption_eq_some.mp ht] at hr'
    have hrun := run_eq_of_runFor hr
    have hrest := run_eq_of_runFor hr'
    have hwhole :=
      (run_append search .predefined "f" ["(a)", ".array [1", "2]"] [".word a"]).1 s hrun
    refine ⟨s, t, hrun, (Prod.mk.inj hindex).1, hrest, (Prod.mk.inj hindex).2, ?_⟩
    exact hwhole.trans (congrArg (Option.map _) hrest)
  · obtain ⟨r, hr, h⟩ := Option.map_eq_some_iff.mp hfail
    cases r with
    | ok => cases h
    | error e =>
      have hrun := run_eq_of_runFor hr
      have hclosed := Except.error.inj h
      exact ⟨e, hrun, hclosed,
        (run_append search .predefined "f" [".word"] ["(a)"]).2 e hrun hclosed⟩

end Runs

end Layout

end NibbleAsm
