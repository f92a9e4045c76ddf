import NibbleAsm.Proofs.Fit
import NibbleAsm.Proofs.Run

/-!
# What a line of source does

A line that does not fail is blank, binds a label, or places one command. This module says once
what each kind of line does to the state, with every check that it has passed, so that what all
lines preserve follows by looking at the cases. A line that fails has a proper failure, which is
placed at the line or, where an array breaks, at the line that breaks it.

## Main definitions

* `SourceLine.keyword`, `SourceLine.operandText`: the first word of a line and what follows it
* `Directed`: what each directive does when it does not fail
* `Handled`: what a line does when it does not fail
* `Fails`: what a line may fail with
* `Yields line pending P x`: the operation `x` yields a result with `P`, or fails as the line may

## Main results

* `yields_directive`, `ends_step`: directives and lines do what these relations say
* `Directed.exists_directive`, `Handled.exists_step`: they do all that these relations allow
* `Handled.extends`: a line leaves the placed commands alone or puts one that fits behind them
* `Trace.isPrefix_placed`: placed commands stay where they are
-/

namespace NibbleAsm

/-- The first word of the content of a line. -/
def SourceLine.keyword (l : SourceLine) : String :=
  (Text.firstWord l.content).1

/-- What follows the first word of the content of a line. -/
def SourceLine.operandText (l : SourceLine) : String :=
  (Text.firstWord l.content).2

theorem SourceLine.keyword_of_blank {l : SourceLine} (h : l.content = "") : l.keyword = "" := by
  rw [keyword, h]
  rfl

/-- A line opens an array: `text` is what follows the bracket. -/
def SourceLine.OpensArray (l : SourceLine) (text : List Char) : Prop :=
  l.keyword = ".array" ∧ l.operandText.toList = '[' :: text

theorem Directive.mem_table_of_ofName? {word : String} {d : Directive}
    (h : Directive.ofName? word = some d) : (word, d) ∈ Directive.table := by
  obtain ⟨before, after, htable, -⟩ := List.lookup_eq_some_iff.mp h
  exact htable ▸ List.mem_append_right _ List.mem_cons_self

/-- The name of a directive starts with a dot. -/
theorem Directive.startsWith_of_ofName? {word : String} {d : Directive}
    (h : Directive.ofName? word = some d) :
    word ≠ "" ∧ Text.startsWith '(' word = false ∧ Text.startsWith '.' word = true := by
  have hall : ∀ pair ∈ Directive.table, pair.1 ≠ "" ∧ Text.startsWith '(' pair.1 = false ∧
      Text.startsWith '.' pair.1 = true := by decide +kernel
  exact hall (word, d) (mem_table_of_ofName? h)

/-- The command that a line asks for, placed at an address. -/
def Placed.ofLine (line : SourceLine) (command : Command) (address : Nat) : Placed :=
  ⟨line.keyword, command, command.size, address, some line.location, line.content⟩

namespace Layout

variable {α β : Type} {search : Search} {line : SourceLine} {args : String} {s s' mid : State}

/-! ## The parts of a line -/

/-- The state with a symbol defined, and with a note if the symbol has another value now. -/
def State.bound (s : State) (name : String) (value : Int) (location : Location) : State :=
  { s with
    symbols := ⟨s.symbols.symbols.insert name ⟨value, location, false⟩⟩
    log := s.log ++
      (s.symbols.get? name).elim [] (SymbolTable.redefinition · name value location) }

theorem State.define_of_ok {name : String} {value v : Int} {location : Location}
    (h : SymbolTable.checkValue name value = .ok v) :
    s.define name value location = .ok (s.bound name v location) := by
  unfold State.define
  rw [SymbolTable.define_of_ok h]
  rfl

theorem State.define_of_error {name : String} {value : Int} {location : Location} {f : Failure}
    (h : SymbolTable.checkValue name value = .error f) :
    s.define name value location = .error ⟨f, s.log⟩ := by
  unfold State.define
  rw [SymbolTable.define_of_error h]
  show Except.error (⟨f, s.log ++ []⟩ : Halt) = _
  simp

theorem State.define_eq_ok {name : String} {value : Int} {location : Location}
    (h : s.define name value location = .ok s') :
    0 ≤ value ∧ value < 0x10000 ∧ s' = s.bound name value location := by
  cases hcheck : SymbolTable.checkValue name value with
  | error f => cases (State.define_of_error hcheck).symm.trans h
  | ok v =>
    obtain ⟨rfl, hlo, hhi⟩ := (proper_checkValue name value).of_ok hcheck
    cases (State.define_of_ok hcheck).symm.trans h
    exact ⟨hlo, hhi, rfl⟩

theorem State.place_eq_ok {command : Command}
    (h : s.place line line.keyword command = .ok s') :
    s.index + command.size ≤ addressSpace ∧ s' = { s with
      index := s.index + command.size
      placed := s.placed.push (.ofLine line command s.index) } := by
  unfold State.place at h
  dsimp only at h
  split at h
  · cases h
  · cases h
    exact ⟨by omega, rfl⟩

theorem State.place_of_le {command : Command} (h : s.index + command.size ≤ addressSpace) :
    s.place line line.keyword command = .ok { s with
      index := s.index + command.size
      placed := s.placed.push (.ofLine line command s.index) } := by
  unfold State.place
  dsimp only
  rw [if_neg (Nat.not_lt.mpr h)]
  rfl

/-- What a directive does when it does not fail: the command it asks for and the state in which
the command is to be placed. -/
inductive Directed (search : Search) (line : SourceLine) (args : String) (s : State) :
    Directive → Command → State → Prop
  | set {name text : String} {operand : Operand} {value : Int} {s' : State}
      (split : twoOperands ".set" args = .ok (name, text)) (free : isLiteral name = false)
      (bare : Text.startsWith '(' name = false)
      (parsed : Operand.parse .word text = .ok operand)
      (resolved : operand.resolve s.symbols.lookup = .ok value)
      (defined : s.define name value line.location = .ok s') :
      Directed search line args s .set .nothing s'
  | word {text : String} {operand : Operand} (split : oneOperand ".word" args = .ok text)
      (parsed : Operand.parse .word text = .ok operand) :
      Directed search line args s .word (.values [operand]) s
  | array {text : List Char} {taken : Taken (List Operand)} (opened : args.toList = '[' :: text)
      (read : readArray line (String.ofList text) #[] 0 s.cursor.pending = .ok taken) :
      Directed search line args s .array (.values taken.value) (s.take taken)
  | fillArray {countText text : String} {counter operand : Operand} {count : Int}
      (split : twoOperands ".fill-array" args = .ok (countText, text))
      (counted : Operand.parse .word countText = .ok counter)
      (resolved : counter.resolve s.symbols.lookup = .ok count)
      (parsed : Operand.parse .word text = .ok operand) :
      Directed search line args s .fillArray (.fill count.toNat operand) s
  | move {text : String} {operand : Operand} {target : Int}
      (split : oneOperand ".move" args = .ok text)
      (parsed : Operand.parse .word text = .ok operand)
      (resolved : operand.resolve s.symbols.lookup = .ok target)
      (ahead : (s.index : Int) ≤ target) :
      Directed search line args s .move (.zeros (target.toNat - s.index)) s
  | string {words : List Int} (encoded : encodeText (Text.firstWord line.text).2 = .ok words) :
      Directed search line args s .string (.block words) s
  | longString {mode separator : String} {taken : Taken (List String)} {words : List Int}
      (split : oneOperand ".long-string" args = .ok mode)
      (known : longStringSeparator mode = .ok separator)
      (read : readLongString [] 0 s.cursor.pending = .ok taken)
      (encoded : encodeText (Text.join separator taken.value) = .ok words) :
      Directed search line args s .longString (.block words) (s.take taken)
  | includeFile {name : String} {path : FilePath} {texts : List String} {log : Array Note}
      (split : oneOperand ".include" args = .ok name)
      (found : search.find (unquote name) line.location = .ok path)
      (closed : Search.isOpen search.files line path = .ok false)
      (read : Search.readLines search.files path line.location = .ok texts) :
      Directed search line args s .includeFile .nothing
        { s with cursor := s.cursor.splice path.text texts line, log := log }
  | copy {name : String} {path : FilePath} {words : List Int} {log : Array Note}
      (split : oneOperand ".copy" args = .ok name)
      (found : search.find (unquote name) line.location = .ok path)
      (read : Search.readWords search.files path line.location = .ok words) :
      Directed search line args s .copy (.block words) { s with log := log }

/-- What a line does when it does not fail: the state after it. -/
inductive Handled (search : Search) (line : SourceLine) (s : State) : State → Prop
  | blank (empty : line.content = "") : Handled search line s s
  | label {name : String} {s' : State} (opened : Text.startsWith '(' line.keyword = true)
      (named : labelName? line.content = some name) (free : isLiteral name = false)
      (inside : s.index < addressSpace)
      (defined : s.define name s.index line.location = .ok s') : Handled search line s s'
  | directive {d : Directive} {command : Command} {mid s' : State}
      (closed : Text.startsWith '(' line.keyword = false)
      (named : Directive.ofName? line.keyword = some d)
      (directed : Directed search line line.operandText s d command mid)
      (placed : mid.place line line.keyword command = .ok s') : Handled search line s s'
  | operation {command : Command} {s' : State} (closed : Text.startsWith '(' line.keyword = false)
      (plain : Text.startsWith '.' line.keyword = false)
      (built : Command.ofOperation line.keyword line.operandText = .ok command)
      (placed : s.place line line.keyword command = .ok s') : Handled search line s s'

/-- What handling a line may fail with, before the failure is placed at the line: a failure about a
text without a place, a failure about a file at the place of the line, or the failure of an array
that the line opens, at the line where the array breaks. -/
inductive Fails (line : SourceLine) (pending : List SourceLine) : Failure → Prop
  | bare {f : Failure} (h : f.IsAt none false) : Fails line pending f
  | file {f : Failure} (h : f.IsAt (some line.location) true) : Fails line pending f
  | array {l : SourceLine} {f : Failure} (text : List Char) (opened : line.OpensArray text)
      (breaks : ArrayBreaks l f line (String.ofList text) pending) :
      Fails line pending (f.locate l.location (some l.text))

theorem Fails.isInternal {pending : List SourceLine} {f : Failure} (h : Fails line pending f) :
    f.isInternal = false := by
  cases h with
  | bare h | file h => exact h.isInternal
  | array _ _ breaks => exact (Failure.isInternal_locate _ _ _).trans breaks.isAt.isInternal

/-- An operation of the first pass that yields a result with a property, or fails as the line that
is handled may fail. -/
abbrev Yields (line : SourceLine) (pending : List SourceLine) (P : α → Prop) (x : Except Halt α) :
    Prop :=
  Ends (fun e => Fails line pending e.failure) P x

section Yields

variable {pending : List SourceLine} {P : α → Prop} {E : Failure → Prop}

theorem yields_lift {x : Except Failure α} (hx : Ends E P x)
    (hE : ∀ f, E f → Fails line pending f) :
    Yields line pending (fun a => x = .ok a) (s.lift x) := by
  cases hx with
  | ok => exact .ok rfl
  | error h => exact .error (hE _ h)

/-- An operation that knows no place. -/
theorem yields_bare {x : Except Failure α} (hx : Bare P x) :
    Yields line pending (fun a => x = .ok a) (s.lift x) :=
  yields_lift hx fun _ => .bare

/-- An operation on a file that the line names. -/
theorem yields_file {x : Except Failure α} (hx : ProperAt (some line.location) P x) :
    Yields line pending (fun a => x = .ok a) (s.lift x) :=
  yields_lift hx fun _ => .file

theorem yields_fail {cause : Cause} (h : cause.isInternal = false)
    (plain : cause.isAboutFile = false) : Yields line pending P (s.fail cause) :=
  .error (.bare ⟨h, rfl, rfl, plain⟩)

theorem yields_define (s : State) (name : String) (value : Int) (location : Location) :
    Yields line pending (fun s' => s.define name value location = .ok s')
      (s.define name value location) := by
  cases h : SymbolTable.checkValue name value with
  | error f =>
    rw [State.define_of_error h]
    exact .error (.bare ((proper_checkValue name value).of_error h))
  | ok v =>
    rw [State.define_of_ok h]
    exact .ok rfl

theorem yields_place (s : State) (title : String) (command : Command) :
    Yields line pending (fun s' => s.place line title command = .ok s')
      (s.place line title command) := by
  unfold State.place
  dsimp only
  split
  · exact yields_fail rfl rfl
  · exact .ok rfl

end Yields

/-! ## Directives and lines -/

/-- **A directive does what `Directed` says, or fails as its line may fail.** -/
theorem yields_directive (search : Search) {line : SourceLine} {d : Directive}
    (named : Directive.ofName? line.keyword = some d) (s : State) :
    Yields line s.cursor.pending (fun r => Directed search line line.operandText s d r.1 r.2)
      (directive search line d line.operandText s) := by
  unfold directive
  -- each directive is a sequence of operations, and what each of them yields is kept
  cases d with
  | set =>
    dsimp only
    refine (yields_bare (proper_twoOperands _ _)).bind fun ⟨name, text⟩ hsplit => ?_
    dsimp only
    split
    · exact yields_fail rfl rfl
    · next hname =>
      -- the name is neither a literal nor in parentheses
      rw [Bool.or_eq_true, not_or, Bool.not_eq_true, Bool.not_eq_true] at hname
      refine (yields_bare (proper_parse _ _)).bind fun operand hparse => ?_
      have hfits := (proper_parse _ _).of_ok hparse
      refine (yields_bare (proper_resolve (isProper_lookup _) hfits)).bind fun value hvalue => ?_
      exact (yields_define _ _ _ _).bind fun s' hs' =>
        .ok (.set hsplit hname.1 hname.2 hparse hvalue hs')
  | word =>
    dsimp only
    refine (yields_bare (proper_oneOperand _ _)).bind fun text hsplit => ?_
    exact (yields_bare (proper_parse _ _)).bind fun operand hparse => .ok (.word hsplit hparse)
  | array =>
    dsimp only
    split
    · next hopen =>
      have hmem := Directive.mem_table_of_ofName? named
      have hkeyword : line.keyword = ".array" := by simpa [Directive.table] using hmem
      refine (yields_lift (ends_readArray _ _ (by simp) _ _) fun f hf => ?_).bind fun taken hread =>
        .ok (.array hopen hread)
      rcases hf with hf | ⟨l, g, hbreaks, rfl⟩
      · exact .bare hf
      · exact .array _ ⟨hkeyword, hopen⟩ hbreaks
    · exact yields_fail rfl rfl
  | fillArray =>
    dsimp only
    refine (yields_bare (proper_twoOperands _ _)).bind fun ⟨countText, text⟩ hsplit => ?_
    refine (yields_bare (proper_parse _ _)).bind fun counter hcounter => ?_
    have hfits := (proper_parse _ _).of_ok hcounter
    refine (yields_bare (proper_resolve (isProper_lookup _) hfits)).bind fun count hcount => ?_
    exact (yields_bare (proper_parse _ _)).bind fun operand hparse =>
      .ok (.fillArray hsplit hcounter hcount hparse)
  | move =>
    dsimp only
    refine (yields_bare (proper_oneOperand _ _)).bind fun text hsplit => ?_
    refine (yields_bare (proper_parse _ _)).bind fun operand hparse => ?_
    have hfits := (proper_parse _ _).of_ok hparse
    refine (yields_bare (proper_resolve (isProper_lookup _) hfits)).bind fun target htarget => ?_
    split
    · exact yields_fail rfl rfl
    · next hahead => exact .ok (.move hsplit hparse htarget (Int.not_lt.mp hahead))
  | string =>
    dsimp only
    exact (yields_bare (proper_encodeText _)).bind fun words hwords => .ok (.string hwords)
  | longString =>
    dsimp only
    refine (yields_bare (proper_oneOperand _ _)).bind fun mode hsplit => ?_
    refine (yields_bare (proper_longStringSeparator _)).bind fun separator hmode => ?_
    refine (yields_bare (proper_readLongString _ _ _)).bind fun taken hread => ?_
    exact (yields_bare (proper_encodeText _)).bind fun words hwords =>
      .ok (.longString hsplit hmode hread hwords)
  | endLongString => exact yields_fail rfl rfl
  | includeFile =>
    dsimp only
    refine (yields_bare (proper_oneOperand _ _)).bind fun name hsplit => ?_
    refine (yields_file (proper_find _ _ _)).bind fun path hfind => ?_
    refine (yields_bare (proper_isOpen _ _ _)).bind fun isOpen hopen => ?_
    split
    · exact yields_fail rfl rfl
    · next hclosed =>
      -- the file is not one of those that led here
      rw [Bool.not_eq_true] at hclosed
      subst hclosed
      exact (yields_file (proper_readLines _ _ _)).bind fun texts hread =>
        .ok (.includeFile hsplit hfind hopen hread)
  | copy =>
    dsimp only
    refine (yields_bare (proper_oneOperand _ _)).bind fun name hsplit => ?_
    refine (yields_file (proper_find _ _ _)).bind fun path hfind => ?_
    refine (yields_lift (ends_readWords _ _ _) fun f hf => ?_).bind fun words hread =>
      .ok (.copy hsplit hfind hread)
    exact hf.elim .bare .file

theorem yields_label {pending : List SourceLine}
    (opened : Text.startsWith '(' line.keyword = true) :
    Yields line pending (Handled search line s) (label line line.content s) := by
  unfold label
  split
  · exact yields_fail rfl rfl
  · next name hname =>
    split
    · exact yields_fail rfl rfl
    · next hfree =>
      rw [Bool.not_eq_true] at hfree
      split
      · exact yields_fail rfl rfl
      · next hinside =>
        exact (yields_define s name s.index line.location).mono fun s' hs' =>
          .label opened hname hfree (Nat.lt_of_not_le hinside) hs'

theorem yields_statement (search : Search) (line : SourceLine) (s : State) :
    Yields line s.cursor.pending (Handled search line s)
      (statement search line line.content s) := by
  unfold statement
  dsimp only
  rw [← SourceLine.keyword, ← SourceLine.operandText]
  split
  · next hopened => exact yields_label hopened
  · next hclosed =>
    rw [Bool.not_eq_true] at hclosed
    split
    · split
      · exact yields_fail rfl rfl
      · next d hd =>
        refine (yields_directive search hd s).bind fun p hp => ?_
        exact (yields_place _ _ _).mono fun s' hs' => .directive hclosed hd hp hs'
    · next hplain =>
      rw [Bool.not_eq_true] at hplain
      refine (yields_bare (proper_ofOperation _ _)).bind fun command hbuilt => ?_
      exact (yields_place _ _ _).mono fun s' hs' => .operation hclosed hplain hbuilt hs'

/-- **A line does what `Handled` says, or fails as it may.** Its failure is placed at the line,
unless it has a place already. -/
theorem ends_step (search : Search) (line : SourceLine) (s : State) :
    Ends (fun e => ∃ f, Fails line s.cursor.pending f ∧
        e.failure = f.locate line.location (some line.text))
      (Handled search line s) (step search line s) := by
  unfold step
  dsimp only
  split
  · next hempty => exact .ok (.blank hempty)
  · have h := yields_statement search line s
    generalize statement search line line.content s = x at h ⊢
    cases h with
    | ok h => exact .ok h
    | error h => exact .error ⟨_, h, rfl⟩

theorem isInternal_of_step {e : Halt} (h : step search line s = .error e) :
    e.failure.isInternal = false := by
  obtain ⟨f, hf, he⟩ := (ends_step search line s).of_error h
  rw [he, Failure.isInternal_locate]
  exact hf.isInternal

theorem ne_unfinished_of_step {e : Halt} (h : step search line s = .error e) :
    e.failure ≠ .unfinished := by
  obtain ⟨f, hf, he⟩ := (ends_step search line s).of_error h
  rw [he]
  refine Failure.locate_ne_unfinished ?_ _ _
  cases hf with
  | bare h | file h => exact h.ne_unfinished
  | array _ _ breaks => exact Failure.locate_ne_unfinished breaks.isAt.ne_unfinished _ _

theorem handled_of_step (h : step search line s = .ok s') : Handled search line s s' :=
  (ends_step search line s).of_ok h

/-! ## All that directives and lines can do -/

@[simp] theorem State.lift_ok (s : State) (a : α) : s.lift (.ok a) = .ok a := rfl

/-- **A directive does what `Directed` allows**, up to its notes. -/
theorem Directed.exists_directive {d : Directive} {command : Command}
    (h : Directed search line args s d command mid) :
    ∃ log, directive search line d args s = .ok (command, { mid with log := log }) := by
  cases h with
  | set split free bare parsed resolved defined =>
    refine ⟨mid.log, ?_⟩
    simp [directive, split, free, bare, parsed, resolved, defined, bind, Except.bind]
  | word split parsed =>
    refine ⟨s.log, ?_⟩
    simp [directive, split, parsed, bind, Except.bind]
  | array opened read =>
    refine ⟨s.log, ?_⟩
    simp [directive, opened, read, bind, Except.bind, State.take]
  | fillArray split counted resolved parsed =>
    refine ⟨s.log, ?_⟩
    simp [directive, split, counted, resolved, parsed, bind, Except.bind]
  | move split parsed resolved ahead =>
    refine ⟨s.log, ?_⟩
    simp [directive, split, parsed, resolved, Int.not_lt.mpr ahead, bind, Except.bind]
  | string encoded =>
    refine ⟨s.log, ?_⟩
    simp [directive, encoded, bind, Except.bind]
  | longString split known read encoded =>
    refine ⟨s.log, ?_⟩
    simp [directive, split, known, read, encoded, bind, Except.bind, State.take]
  | @includeFile name path texts log split found closed read =>
    -- two notes are taken on the way, one for the path and one for the lines
    refine ⟨(s.log.push (.resolved (unquote name) path.text)).push
      (.included line.location path.text texts.length), ?_⟩
    simp [directive, split, found, closed, read, bind, Except.bind, State.note]
  | @copy name path words log split found read =>
    refine ⟨(s.log.push (.resolved (unquote name) path.text)).push
      (.copied line.location words.length path.text), ?_⟩
    simp [directive, split, found, read, bind, Except.bind, State.note]

theorem step_of_content (h : line.content ≠ "") :
    step search line s =
      (statement search line line.content s).mapError (Halt.locate line) := by
  unfold step
  dsimp only
  rw [if_neg h]

/-- A line with the name of a directive places the command that the directive asks for. -/
theorem step_of_named {d : Directive} (named : Directive.ofName? line.keyword = some d) :
    step search line s =
      (directive search line d line.operandText s >>= fun p =>
        p.2.place line line.keyword p.1).mapError (Halt.locate line) := by
  obtain ⟨hne, hclosed, hdotted⟩ := Directive.startsWith_of_ofName? named
  rw [step_of_content fun hempty => hne (SourceLine.keyword_of_blank hempty), statement]
  dsimp only
  rw [← SourceLine.keyword, ← SourceLine.operandText, hclosed, if_neg Bool.false_ne_true, hdotted,
    if_pos rfl, named]

/-- **A line does what `Handled` allows**, up to its notes. -/
theorem Handled.exists_step (h : Handled search line s s') :
    ∃ log, step search line s = .ok { s' with log := log } := by
  cases h with
  | blank empty => exact ⟨s.log, by simp [step, empty]⟩
  | label opened named free inside defined =>
    have hcontent : line.content ≠ "" := by
      intro hempty
      rw [SourceLine.keyword_of_blank hempty] at opened
      cases opened
    refine ⟨s'.log, ?_⟩
    rw [step_of_content hcontent, statement]
    dsimp only
    rw [← SourceLine.keyword, if_pos opened]
    simp [Layout.label, named, free, Nat.not_le.mpr inside, defined, Except.mapError]
  | directive closed named directed placed =>
    obtain ⟨log, hdirective⟩ := directed.exists_directive
    obtain ⟨hle, rfl⟩ := State.place_eq_ok placed
    refine ⟨log, ?_⟩
    rw [step_of_named named]
    exact mapError_eq_ok.mpr (bind_eq_ok.mpr ⟨_, hdirective, State.place_of_le hle⟩)
  | operation closed plain built placed =>
    -- no operation has an empty name
    have hcontent : line.content ≠ "" := by
      intro hempty
      rw [SourceLine.keyword_of_blank hempty] at built
      cases built
    refine ⟨s'.log, ?_⟩
    rw [step_of_content hcontent, statement]
    dsimp only
    rw [← SourceLine.keyword, ← SourceLine.operandText, closed, plain]
    simp [built, placed, bind, Except.bind, Except.mapError]

/-- A line with the name of a directive places the command that the directive allows, inside the
address space. -/
theorem Directed.exists_step {d : Directive} {command : Command}
    (h : Directed search line line.operandText s d command mid)
    (named : Directive.ofName? line.keyword = some d)
    (within : mid.index + command.size ≤ addressSpace) :
    ∃ log, step search line s = .ok { mid with
      index := mid.index + command.size
      placed := mid.placed.push (.ofLine line command mid.index)
      log := log } :=
  Handled.exists_step (.directive (Directive.startsWith_of_ofName? named).2.1 named h
    (State.place_of_le within))

/-! ## What lines leave alone -/

theorem Directed.index_eq {d : Directive} {command : Command}
    (h : Directed search line args s d command mid) : mid.index = s.index := by
  cases h with
  | set _ _ _ _ _ defined =>
    obtain ⟨-, -, rfl⟩ := State.define_eq_ok defined
    rfl
  | _ => rfl

theorem Directed.placed_eq {d : Directive} {command : Command}
    (h : Directed search line args s d command mid) : mid.placed = s.placed := by
  cases h with
  | set _ _ _ _ _ defined =>
    obtain ⟨-, -, rfl⟩ := State.define_eq_ok defined
    rfl
  | _ => rfl

/-- The command that a directive asks for fits. -/
theorem Directed.fits {d : Directive} {command : Command}
    (h : Directed search line args s d command mid) : command.Fits := by
  cases h with
  | set => exact .nothing
  | word _ parsed =>
    have hfits := (proper_parse _ _).of_ok parsed
    exact .values (by simpa using hfits)
  | array _ read => exact .values ((ends_readArray _ _ (by simp) _ _).of_ok read).1
  | fillArray _ _ _ parsed => exact .fill _ ((proper_parse _ _).of_ok parsed)
  | move => exact .zeros _
  | string encoded => exact .block ((proper_encodeText _).of_ok encoded)
  | longString _ _ _ encoded => exact .block ((proper_encodeText _).of_ok encoded)
  | includeFile => exact .nothing
  | copy _ _ read => exact .block ((ends_readWords _ _ _).of_ok read)

/-- **A line leaves the placed commands alone, or puts one that fits behind them**, at the current
address and inside the address space. -/
theorem Handled.extends (h : Handled search line s s') :
    (s'.index = s.index ∧ s'.placed = s.placed) ∨
      ∃ command, command.Fits ∧ s'.index = s.index + command.size ∧ s'.index ≤ addressSpace ∧
        s'.placed = s.placed.push (.ofLine line command s.index) := by
  cases h with
  | blank => exact .inl ⟨rfl, rfl⟩
  | label _ _ _ _ defined =>
    obtain ⟨-, -, rfl⟩ := State.define_eq_ok defined
    exact .inl ⟨rfl, rfl⟩
  | directive _ _ directed placed =>
    -- the directive has not moved the state in which its command is placed
    obtain ⟨hle, rfl⟩ := State.place_eq_ok placed
    rw [directed.index_eq, directed.placed_eq] at *
    exact .inr ⟨_, directed.fits, rfl, hle, rfl⟩
  | operation _ _ built placed =>
    obtain ⟨hle, rfl⟩ := State.place_eq_ok placed
    exact .inr ⟨_, (proper_ofOperation _ _).of_ok built, rfl, hle, rfl⟩

theorem Handled.isPrefix_placed (h : Handled search line s s') :
    s.placed.toList <+: s'.placed.toList := by
  rcases h.extends with ⟨-, hp⟩ | ⟨command, -, -, -, hp⟩
  · exact hp ▸ List.prefix_rfl
  · rw [hp, Array.toList_push]
    exact List.prefix_append _ _

/-- Popping a line changes the cursor only. -/
theorem State.frame_of_next? {v : Visit} (h : s.next? = some v) :
    v.state.symbols = s.symbols ∧ v.state.index = s.index ∧ v.state.placed = s.placed := by
  rw [(State.pending_of_next? h).2]
  exact ⟨rfl, rfl, rfl⟩

/-- Placed commands stay where they are. -/
theorem Trace.isPrefix_placed {vs : List Visit} (h : Trace search s vs s') :
    s.placed.toList <+: s'.placed.toList :=
  h.preserves (I := fun t => s.placed.toList <+: t.placed.toList)
    (fun next done ih => by
      have hs := (handled_of_step done).isPrefix_placed
      rw [(State.frame_of_next? next).2.2] at hs
      exact ih.trans hs)
    List.prefix_rfl

end Layout

end NibbleAsm
