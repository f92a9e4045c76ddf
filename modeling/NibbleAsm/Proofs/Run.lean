import NibbleAsm.Proofs.Outcome
import Mathlib.Data.Option.Basic

/-!
# Runs of the first pass

The first pass takes line after line until none is left or one fails. A trace lists the lines that
were handled on the way from one state to another, each with the state it met, so what holds of a
whole run is proved by induction on its trace.

## Main definitions

* `Visit`: a line with the state it is handled in
* `Trace search s vs s'`: handling the lines `vs` leads from `s` to `s'`
* `runFor search n s`: the run, if at most `n` lines end it
* `advance search n s`: the first `n` lines of a run

## Main results

* `run_eq_some_iff`: a run ends when some number of lines ends it
* `run_eq_ok_iff`, `run_eq_error_iff`: a run succeeds when a trace uses up the lines, and fails when
  a trace leads to a line that fails
* `Trace.preserves`: what every line preserves holds after a trace
* `run_rel`: states that correspond line by line have runs that correspond
* `Trace.simulate`: a trace is followed by another if every line is
-/

namespace NibbleAsm.Layout

variable {search : Search} {s s' mid : State} {v : Visit} {vs ws : List Visit}

/-- A line with the state it is handled in, which is the state behind the line. -/
structure Visit where
  line : SourceLine
  state : State

/-- The next line to be handled. -/
def State.next? (s : State) : Option Visit :=
  s.cursor.pop?.map fun p => ⟨p.1, { s with cursor := p.2 }⟩

theorem State.next?_eq_none_iff : s.next? = none ↔ s.cursor.pending = [] := by
  unfold next? Cursor.pop?
  cases s.cursor.pending <;> simp

theorem State.next?_of_pending {line : SourceLine} {rest : List SourceLine}
    (h : s.cursor.pending = line :: rest) :
    s.next? = some ⟨line, { s with cursor := ⟨rest, s.cursor.taken + 1⟩ }⟩ := by
  simp [next?, Cursor.pop?, h]

theorem State.pending_of_next? (h : s.next? = some v) :
    s.cursor.pending = v.line :: v.state.cursor.pending ∧
      v.state = { s with cursor := ⟨v.state.cursor.pending, s.cursor.taken + 1⟩ } := by
  cases hp : s.cursor.pending with
  | nil => rw [next?_eq_none_iff.mpr hp] at h; cases h
  | cons line rest =>
    rw [next?_of_pending hp] at h
    cases h
    exact ⟨rfl, rfl⟩

/-! ## One line of a run -/

theorem run_of_next?_eq_none (h : s.next? = none) : s.run search = some (.ok s) := by
  rw [State.run]
  simp [Cursor.pop?, State.next?_eq_none_iff.mp h]

theorem run_of_step_ok (h : s.next? = some v) (hs : step search v.line v.state = .ok s') :
    s.run search = s'.run search := by
  obtain ⟨⟨line, cursor⟩, hp, rfl⟩ := Option.map_eq_some_iff.mp h
  rw [State.run]
  simp only [hp, hs]

theorem run_of_step_error {e : Halt} (h : s.next? = some v)
    (hs : step search v.line v.state = .error e) : s.run search = some (.error e) := by
  obtain ⟨⟨line, cursor⟩, hp, rfl⟩ := Option.map_eq_some_iff.mp h
  rw [State.run]
  simp only [hp, hs]

/-! ## Runs of bounded length -/

/-- The effect of all lines, or `none` if more than `n` steps are needed to see the end. -/
def runFor (search : Search) : Nat → State → Option (Except Halt State)
  | 0, _ => none
  | n + 1, s =>
    match s.next? with
    | none => some (.ok s)
    | some v =>
      match step search v.line v.state with
      | .error h => some (.error h)
      | .ok s' => runFor search n s'

theorem runFor_of_next?_eq_none {n : Nat} (h : s.next? = none) :
    runFor search (n + 1) s = some (.ok s) := by
  simp only [runFor, h]

theorem runFor_of_step_ok {n : Nat} (h : s.next? = some v)
    (hs : step search v.line v.state = .ok s') :
    runFor search (n + 1) s = runFor search n s' := by
  simp only [runFor, h, hs]

theorem runFor_of_step_error {n : Nat} {e : Halt} (h : s.next? = some v)
    (hs : step search v.line v.state = .error e) :
    runFor search (n + 1) s = some (.error e) := by
  simp only [runFor, h, hs]

theorem run_eq_of_runFor {n : Nat} {r : Except Halt State} (h : runFor search n s = some r) :
    s.run search = some r := by
  -- on the bound: either no line is left, or the next one fails, or the rest needs a step less
  induction n generalizing s with
  | zero => cases h
  | succ n ih =>
    cases hv : s.next? with
    | none =>
      rw [runFor_of_next?_eq_none hv] at h
      rw [run_of_next?_eq_none hv, h]
    | some v =>
      cases hs : step search v.line v.state with
      | error e =>
        rw [runFor_of_step_error hv hs] at h
        rw [run_of_step_error hv hs, h]
      | ok s' =>
        rw [runFor_of_step_ok hv hs] at h
        rw [run_of_step_ok hv hs, ih h]

/-- **A run ends when some number of lines ends it.** -/
theorem run_eq_some_iff {r : Except Halt State} :
    s.run search = some r ↔ ∃ n, runFor search n s = some r := by
  refine ⟨fun h => ?_, fun ⟨n, h⟩ => run_eq_of_runFor h⟩
  -- the run is a least fixed point, so it gives no more than its approximations do
  refine State.run.partial_correctness search (fun s r => ∃ n, runFor search n s = some r) ?_ s r h
  intro f ih s r h
  cases hp : s.cursor.pop? with
  | none =>
    rw [hp] at h
    exact ⟨1, by simpa [runFor, State.next?, hp] using h⟩
  | some p =>
    obtain ⟨line, cursor⟩ := p
    rw [hp] at h
    cases hs : step search line { s with cursor := cursor } with
    | error e =>
      simp only [hs] at h
      exact ⟨1, by simpa [runFor, State.next?, hp, hs] using h⟩
    | ok s' =>
      simp only [hs] at h
      obtain ⟨n, hn⟩ := ih s' r h
      exact ⟨n + 1, by simpa [runFor, State.next?, hp, hs] using hn⟩

/-! ## Traces -/

/-- Handling the lines of a list of visits, one after the other, leads from one state to another.
No line fails. -/
inductive Trace (search : Search) : State → List Visit → State → Prop
  | nil (s : State) : Trace search s [] s
  | cons {s mid s' : State} {v : Visit} {vs : List Visit} (next : s.next? = some v)
      (done : step search v.line v.state = .ok mid) (rest : Trace search mid vs s') :
      Trace search s (v :: vs) s'

namespace Trace

theorem of_append (h : Trace search s (vs ++ ws) s') :
    ∃ mid, Trace search s vs mid ∧ Trace search mid ws s' := by
  induction vs generalizing s with
  | nil => exact ⟨s, .nil s, h⟩
  | cons v vs ih =>
    cases h with
    | cons next done rest =>
      obtain ⟨mid, h₁, h₂⟩ := ih rest
      exact ⟨mid, .cons next done h₁, h₂⟩

theorem concat (h : Trace search s vs mid) (next : mid.next? = some v)
    (done : step search v.line v.state = .ok s') : Trace search s (vs ++ [v]) s' := by
  induction h with
  | nil => exact .cons next done (.nil s')
  | cons next' done' _ ih => exact .cons next' done' (ih next)

/-- Around each of its visits a trace divides into what came before and what comes after. -/
theorem around {before after : List Visit} (h : Trace search s (before ++ v :: after) s') :
    ∃ s₀ s₁, Trace search s before s₀ ∧ s₀.next? = some v ∧
      step search v.line v.state = .ok s₁ ∧ Trace search s₁ after s' := by
  obtain ⟨s₀, h₀, h₁⟩ := h.of_append
  cases h₁ with
  | cons next done rest => exact ⟨s₀, _, h₀, next, done, rest⟩

/-- A line that a trace comes to is handled in every trace from the same state that uses up the
lines. -/
theorem mem_of_next? (h : Trace search s vs mid) (next : mid.next? = some v)
    (whole : Trace search s ws s') (done : s'.cursor.pending = []) : v ∈ ws := by
  rw [← State.next?_eq_none_iff] at done
  -- no line is handled in two ways, so both traces start in the same way
  induction h generalizing ws with
  | nil =>
    cases whole with
    | nil => cases next.symm.trans done
    | cons next' =>
      cases next.symm.trans next'
      exact List.mem_cons_self
  | cons first handled _ ih =>
    cases whole with
    | nil => cases first.symm.trans done
    | cons first' handled' rest =>
      cases first.symm.trans first'
      cases handled.symm.trans handled'
      exact List.mem_cons_of_mem _ (ih next rest)

/-- What every line preserves holds after a trace if it holds before. -/
theorem preserves {I : State → Prop} (h : Trace search s vs s')
    (hI : ∀ {s v s'}, s.next? = some v → step search v.line v.state = .ok s' → I s → I s')
    (hs : I s) : I s' := by
  induction h with
  | nil => exact hs
  | cons next done _ ih => exact ih (hI next done hs)

/-- The rest of a run does not depend on how its start was reached. -/
theorem run_eq (h : Trace search s vs s') : s.run search = s'.run search := by
  induction h with
  | nil => rfl
  | cons next done _ ih => rw [run_of_step_ok next done, ih]

end Trace

/-- The lines that a run handles until one fails, none is left or there are `n` of them, and the
state behind them. -/
def advance (search : Search) : Nat → State → List Visit × State
  | 0, s => ([], s)
  | n + 1, s =>
    match s.next? with
    | none => ([], s)
    | some v =>
      match step search v.line v.state with
      | .error _ => ([], s)
      | .ok mid => (v :: (advance search n mid).1, (advance search n mid).2)

theorem trace_advance (search : Search) (n : Nat) (s : State) :
    Trace search s (advance search n s).1 (advance search n s).2 := by
  induction n generalizing s with
  | zero => exact .nil s
  | succ n ih =>
    unfold advance
    split
    · exact .nil s
    · next v hv =>
      split
      · exact .nil s
      · next mid hs => exact .cons hv hs (ih mid)

theorem exists_trace_of_runFor {n : Nat} {r : Except Halt State}
    (h : runFor search n s = some r) :
    ∃ vs mid, Trace search s vs mid ∧
      ((mid.next? = none ∧ r = .ok mid) ∨
        ∃ v e, mid.next? = some v ∧ step search v.line v.state = .error e ∧ r = .error e) := by
  induction n generalizing s with
  | zero => cases h
  | succ n ih =>
    cases hv : s.next? with
    | none =>
      rw [runFor_of_next?_eq_none hv] at h
      exact ⟨[], s, .nil s, .inl ⟨hv, (Option.some.inj h).symm⟩⟩
    | some v =>
      cases hs : step search v.line v.state with
      | error e =>
        rw [runFor_of_step_error hv hs] at h
        exact ⟨[], s, .nil s, .inr ⟨v, e, hv, hs, (Option.some.inj h).symm⟩⟩
      | ok s' =>
        rw [runFor_of_step_ok hv hs] at h
        obtain ⟨vs, mid, ht, hr⟩ := ih h
        exact ⟨v :: vs, mid, .cons hv hs ht, hr⟩

/-- **A run succeeds when a trace uses up the lines.** -/
theorem run_eq_ok_iff :
    s.run search = some (.ok s') ↔ ∃ vs, Trace search s vs s' ∧ s'.cursor.pending = [] := by
  constructor
  · intro h
    obtain ⟨n, hn⟩ := run_eq_some_iff.mp h
    obtain ⟨vs, mid, ht, ⟨hm, hr⟩ | ⟨v, e, -, -, hr⟩⟩ := exists_trace_of_runFor hn
    · cases hr
      exact ⟨vs, ht, State.next?_eq_none_iff.mp hm⟩
    · cases hr
  · rintro ⟨vs, ht, hp⟩
    rw [ht.run_eq, run_of_next?_eq_none (State.next?_eq_none_iff.mpr hp)]

/-- **A run fails when a trace leads to a line that fails.** -/
theorem run_eq_error_iff {e : Halt} :
    s.run search = some (.error e) ↔
      ∃ vs mid v, Trace search s vs mid ∧ mid.next? = some v ∧
        step search v.line v.state = .error e := by
  constructor
  · intro h
    obtain ⟨n, hn⟩ := run_eq_some_iff.mp h
    obtain ⟨vs, mid, ht, ⟨-, hr⟩ | ⟨v, e', hv, hs, hr⟩⟩ := exists_trace_of_runFor hn
    · cases hr
    · cases hr
      exact ⟨vs, mid, v, ht, hv, hs⟩
  · rintro ⟨vs, mid, v, ht, hv, hs⟩
    rw [ht.run_eq, run_of_step_error hv hs]

/-! ## Runs that correspond -/

section Correspondence

variable {search' : Search} {E : Halt → Halt → Prop} {R : State → State → Prop} {t : State}

/-- A relation of states under which each next line exists on both sides or on neither, and has
outcomes that correspond. -/
def Lockstep (search search' : Search) (E : Halt → Halt → Prop) (R : State → State → Prop) : Prop :=
  ∀ s t, R s t →
    (s.next? = none ∧ t.next? = none) ∨
      ∃ v w, s.next? = some v ∧ t.next? = some w ∧
        OutcomeRel E R (step search v.line v.state) (step search' w.line w.state)

theorem runFor_rel (hR : Lockstep search search' E R) (n : Nat) (h : R s t) :
    Option.Rel (OutcomeRel E R) (runFor search n s) (runFor search' n t) := by
  induction n generalizing s t with
  | zero => exact .none
  | succ n ih =>
    rcases hR s t h with ⟨hs, ht⟩ | ⟨v, w, hs, ht, hvw⟩
    · rw [runFor_of_next?_eq_none hs, runFor_of_next?_eq_none ht]
      exact .some (.ok h)
    · -- both lines succeed or both fail, so the outcomes are taken apart together
      generalize hx : step search v.line v.state = x at hvw
      generalize hy : step search' w.line w.state = y at hvw
      cases hvw with
      | ok h =>
        rw [runFor_of_step_ok hs hx, runFor_of_step_ok ht hy]
        exact ih h
      | error h =>
        rw [runFor_of_step_error hs hx, runFor_of_step_error ht hy]
        exact .some (.error h)

/-- **States that correspond line by line have runs that correspond**: both end and correspond, or
neither ends. -/
theorem run_rel (hR : Lockstep search search' E R) (h : R s t) :
    Option.Rel (OutcomeRel E R) (s.run search) (t.run search') := by
  -- a run that ends does so within some bound, and then the other ends within the same bound
  have hn := fun n => runFor_rel hR n h
  cases hs : s.run search with
  | some r =>
    obtain ⟨n, hr⟩ := run_eq_some_iff.mp hs
    have hrel := hn n
    rw [hr] at hrel
    cases ht : runFor search' n t with
    | none => rw [ht] at hrel; cases hrel
    | some r' =>
      rw [ht] at hrel
      rw [run_eq_of_runFor ht]
      exact hrel
  | none =>
    cases ht : t.run search' with
    | none => exact .none
    | some r' =>
      obtain ⟨n, hr'⟩ := run_eq_some_iff.mp ht
      have hrel := hn n
      rw [hr'] at hrel
      cases hr : runFor search n s with
      | none => rw [hr] at hrel; cases hrel
      | some r =>
        -- the first run would end
        rw [run_eq_of_runFor hr] at hs
        cases hs

/-- **A trace is followed by another**, from a state that corresponds, if every line is followed by
one. -/
theorem Trace.simulate
    (hR : ∀ {s t v mid}, R s t → s.next? = some v → step search v.line v.state = .ok mid →
      ∃ w mid', t.next? = some w ∧ step search' w.line w.state = .ok mid' ∧ R mid mid')
    (trace : Trace search s vs s') (h : R s t) : ∃ ws t', Trace search' t ws t' ∧ R s' t' := by
  induction trace generalizing t with
  | nil => exact ⟨[], t, .nil t, h⟩
  | cons next done _ ih =>
    obtain ⟨w, mid', hw, hmid, hrel⟩ := hR h next done
    obtain ⟨ws, t', htrace, ht'⟩ := ih hrel
    exact ⟨w :: ws, t', .cons hw hmid htrace, ht'⟩

end Correspondence

end NibbleAsm.Layout
