import NibbleAsm.Proofs.Statement

/-!
# Lines with effects that correspond

Two lines, met in two states, may differ in their places, in their comments or in what lies behind
them and still do the same. What it takes is said here once, for any relation between failures and
any relation between states: the lines have the same content, what they look up is the same, and
what they read and change is related. Then so are their effects.

## Main definitions

* `Layout.Corresponds`: what two lines and the states before them have in common

## Main results

* `Corresponds.directive`, `Corresponds.step`: the effects of lines that correspond are related
-/

namespace NibbleAsm

open Layout

variable {α β : Type} {excused : Prop} {E : Failure → Failure → Prop}

theorem Follows.lift {S : α → β → Prop} {x : Except Failure α} {y : Except Failure β}
    (h : Follows excused E S x y) (s t : State) :
    Follows excused (InvImage E Halt.failure) S (s.lift x) (t.lift y) := by
  cases h with
  | ok h => exact .ok h
  | error h => exact .error h
  | excused h => exact .excused h

namespace Layout

variable {search : Search} {R : State → State → Prop} {l m : SourceLine} {s t : State}

/-- What is taken from the lines still to be read corresponds: the value is the same, and the states
without the lines taken are related. -/
structure TakenRel (R : State → State → Prop) (s t : State) (a b : Taken α) : Prop where
  value : a.value = b.value
  state : R (s.take a) (t.take b)

/-- What the lines `l` and `m`, met in the states `s` and `t`, have in common so that they end in
failures related by `E` or in states related by `R`. Some of it only counts on lines with certain
keywords. -/
structure Corresponds (search : Search) (excused : Prop) (E : Failure → Failure → Prop)
    (R : State → State → Prop) (l m : SourceLine) (s t : State) : Prop where
  -- failures
  refl : ∀ f, E f f
  locate : ∀ f g, E f g → E (f.locate l.location l.text) (g.locate m.location m.text)
  -- what the lines look up
  content : l.content = m.content
  text : l.keyword ∈ rawDirectives → l.text = m.text
  lookup : s.symbols.lookup = t.symbols.lookup
  index : s.index = t.index
  -- what they read
  array : ∀ text, Follows excused E (TakenRel R s t)
    (readArray l text #[] 0 s.cursor.pending) (readArray m text #[] 0 t.cursor.pending)
  longString : l.keyword = ".long-string" → Follows excused E (TakenRel R s t)
    (readLongString [] 0 s.cursor.pending) (readLongString [] 0 t.cursor.pending)
  find : l.keyword = ".include" ∨ l.keyword = ".copy" → ∀ name,
    Follows excused E Eq (search.find name l.location) (search.find name m.location)
  isOpen : l.keyword = ".include" → ∀ path,
    Search.isOpen search.files l path = Search.isOpen search.files m path
  readLines : ∀ path, Follows excused E Eq (Search.readLines search.files path l.location)
    (Search.readLines search.files path m.location)
  readWords : ∀ path, Follows excused E Eq (Search.readWords search.files path l.location)
    (Search.readWords search.files path m.location)
  -- what they change
  state : R s t
  define : ∀ name value, Follows excused (InvImage E Halt.failure) R
    (s.define name value l.location) (t.define name value m.location)
  place : ∀ s t, R s t → ∀ title command, Follows excused (InvImage E Halt.failure) R
    (s.place l title command) (t.place m title command)
  splice : l.keyword = ".include" → ∀ note path (texts : List String), R
    ({ s.note note with cursor := s.cursor.splice path texts l }.note
      (.included l.location path texts.length))
    ({ t.note note with cursor := t.cursor.splice path texts m }.note
      (.included m.location path texts.length))
  copy : ∀ note count path, R ((s.note note).note (.copied l.location count path))
    ((t.note note).note (.copied m.location count path))

namespace Corresponds

/-- An operation that looks at neither line nor state. -/
theorem same (h : Corresponds search excused E R l m s t) (s' t' : State) (x : Except Failure α) :
    Follows excused (InvImage E Halt.failure) Eq (s'.lift x) (t'.lift x) :=
  (Follows.same h.refl x).lift s' t'

theorem fail {S : α → β → Prop} (h : Corresponds search excused E R l m s t) (s' t' : State)
    (cause : Cause) : Follows excused (InvImage E Halt.failure) S (s'.fail cause) (t'.fail cause) :=
  .error (h.refl _)

/-- **The directives of lines that correspond ask for the same command.** -/
theorem directive (h : Corresponds search excused E R l m s t) {d : Directive}
    (named : Directive.ofName? l.keyword = some d) (args : String) :
    Follows excused (InvImage E Halt.failure) (fun p q => p.1 = q.1 ∧ R p.2 q.2)
      (directive search l d args s) (directive search m d args t) := by
  have hmem := Directive.mem_table_of_ofName? named
  unfold Layout.directive
  cases d with
  | set =>
    dsimp only
    rw [← h.lookup]
    refine (h.same _ _ _).bind_eq fun ⟨name, text⟩ => ?_
    dsimp only
    split
    · exact h.fail _ _ _
    · refine (h.same _ _ _).bind_eq fun operand => ?_
      refine (h.same _ _ _).bind_eq fun value => ?_
      exact (h.define _ _).bind fun s' t' h' => .ok ⟨rfl, h'⟩
  | word =>
    dsimp only
    refine (h.same _ _ _).bind_eq fun text => ?_
    exact (h.same _ _ _).bind_eq fun operand => .ok ⟨rfl, h.state⟩
  | array =>
    dsimp only
    split
    · refine ((h.array _).lift _ _).bind fun taken taken' hread => ?_
      exact .ok ⟨congrArg Command.values hread.value, hread.state⟩
    · exact h.fail _ _ _
  | fillArray =>
    dsimp only
    rw [← h.lookup]
    refine (h.same _ _ _).bind_eq fun ⟨count, text⟩ => ?_
    refine (h.same _ _ _).bind_eq fun counter => ?_
    refine (h.same _ _ _).bind_eq fun number => ?_
    exact (h.same _ _ _).bind_eq fun operand => .ok ⟨rfl, h.state⟩
  | move =>
    dsimp only
    rw [← h.lookup, ← h.index]
    refine (h.same _ _ _).bind_eq fun text => ?_
    refine (h.same _ _ _).bind_eq fun operand => ?_
    refine (h.same _ _ _).bind_eq fun target => ?_
    split
    · exact h.fail _ _ _
    · exact .ok ⟨rfl, h.state⟩
  | string =>
    -- a line that stores a string has one of two keywords
    have hraw : l.keyword ∈ rawDirectives := by
      simpa [Directive.table, rawDirectives] using hmem
    dsimp only
    rw [← h.text hraw]
    exact (h.same _ _ _).bind_eq fun words => .ok ⟨rfl, h.state⟩
  | longString =>
    have hkeyword : l.keyword = ".long-string" := by simpa [Directive.table] using hmem
    dsimp only
    refine (h.same _ _ _).bind_eq fun mode => ?_
    refine (h.same _ _ _).bind_eq fun separator => ?_
    refine ((h.longString hkeyword).lift _ _).bind fun taken taken' hread => ?_
    rw [← hread.value]
    exact (h.same _ _ _).bind_eq fun words => .ok ⟨rfl, hread.state⟩
  | endLongString => exact h.fail _ _ _
  | includeFile =>
    have hkeyword : l.keyword = ".include" := by simpa [Directive.table] using hmem
    dsimp only
    refine (h.same _ _ _).bind_eq fun name => ?_
    refine ((h.find (.inl hkeyword) _).lift _ _).bind_eq fun path => ?_
    rw [← h.isOpen hkeyword]
    refine (h.same _ _ _).bind_eq fun isOpen => ?_
    split
    · exact h.fail _ _ _
    · refine ((h.readLines path).lift _ _).bind_eq fun texts => ?_
      exact .ok ⟨rfl, h.splice hkeyword _ _ texts⟩
  | copy =>
    have hkeyword : l.keyword = ".copy" := by simpa [Directive.table] using hmem
    dsimp only
    refine (h.same _ _ _).bind_eq fun name => ?_
    refine ((h.find (.inr hkeyword) _).lift _ _).bind_eq fun path => ?_
    exact ((h.readWords path).lift _ _).bind_eq fun words => .ok ⟨rfl, h.copy _ _ _⟩

theorem label (h : Corresponds search excused E R l m s t) (content : String) :
    Follows excused (InvImage E Halt.failure) R (label l content s) (label m content t) := by
  unfold Layout.label
  rw [← h.index]
  split
  · exact h.fail _ _ _
  · split
    · exact h.fail _ _ _
    · split
      · exact h.fail _ _ _
      · exact h.define _ _

theorem statement (h : Corresponds search excused E R l m s t) :
    Follows excused (InvImage E Halt.failure) R (statement search l l.content s)
      (statement search m l.content t) := by
  unfold Layout.statement
  dsimp only
  rw [← SourceLine.keyword, ← SourceLine.operandText]
  split
  · exact h.label _
  · split
    · split
      · exact h.fail _ _ _
      · next d hd =>
        refine (h.directive hd _).bind fun p q hpq => ?_
        rw [hpq.1]
        exact h.place _ _ hpq.2 _ _
    · exact (h.same _ _ _).bind_eq fun command => h.place _ _ h.state _ _

/-- **The effects of lines that correspond are related.** -/
theorem step (h : Corresponds search excused E R l m s t) :
    Follows excused (InvImage E Halt.failure) R (step search l s) (step search m t) := by
  have hstatement := h.statement
  unfold Layout.step
  dsimp only
  rw [← h.content]
  split
  · exact .ok h.state
  · generalize Layout.statement search l l.content s = x at hstatement ⊢
    generalize Layout.statement search m l.content t = y at hstatement ⊢
    cases hstatement with
    | ok h => exact .ok h
    | error hfailure => exact .error (h.locate _ _ hfailure)
    | excused h => exact .excused h

end Corresponds

end Layout

end NibbleAsm
