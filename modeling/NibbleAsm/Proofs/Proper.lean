import NibbleAsm.Proofs.SymbolTable

/-!
# Proper failures

Three failures would be faults of the assembler itself: a command whose words are not as many as
were laid out for it, a field of an instruction that is no nibble, and a word that does not fit an
image. Every other failure is a proper report on the source. Each operation gets one statement,
which says what its value is like, that its failures are proper, and which place they have: an
operation on a text knows no place, and an operation on files reports a file at the place it is
given.

## Main definitions

* `Failure.isInternal`: the failures that are faults of the assembler
* `Cause.isAboutFile`: the causes that are about a file and not about a text
* `Failure.IsAt location aboutFile`: the proper failures with a given place, or with none yet
* `Proper P x`: the operation `x` ends in a value with `P`, or in a proper failure
* `Bare P x`: the same, and a failure is about a text and has no place
* `ProperAt location P x`: the same, and a failure is about a file and has the given place
* `Reports E`: the property `E` of failures covers the proper reports on a text
* `Scope.IsProper`: the scopes whose failures are proper

## Main results

* `proper_oneOperand`, `proper_twoOperands`, `proper_splitOperands`: dividing an operand text
* `proper_check`, `proper_parse_literal`: values that have to fit
* `proper_lookup`, `proper_define`: tables of symbols
* `proper_readLongString`, `proper_longStringSeparator`: texts of several lines
* `proper_find`, `proper_readLines`, `proper_isOpen`: files
-/

namespace NibbleAsm

variable {α β : Type}

/-- Whether a cause says that the words of a command are not as many as were laid out. -/
def Cause.isInternal : Cause → Bool
  | sizeMismatch .. => true
  | _ => false

/-- Whether a fault is about a number that the assembler itself has made. -/
def Fault.isInternal : Fault → Bool
  | nibbleOutOfRange _ | wordOutOfRange => true
  | _ => false

/-- Whether a failure would be a fault of the assembler and not of the source. -/
def Failure.isInternal : Failure → Bool
  | error d => d.cause.isInternal
  | fault f => f.isInternal
  | unfinished => false

@[simp] theorem Failure.isInternal_locate (f : Failure) (location : Location)
    (line : Option String) : (f.locate location line).isInternal = f.isInternal := by
  cases f with
  | error d =>
    change (d.locate location line).cause.isInternal = d.cause.isInternal
    unfold Diagnostic.locate
    cases d.location <;> rfl
  | fault | unfinished => rfl

/-- An operation that ends in a value with a property, or in a proper failure. -/
abbrev Proper (P : α → Prop) (x : Except Failure α) : Prop :=
  Ends (fun f => f.isInternal = false) P x

/-- Whether a cause is that a file is not found or cannot be read. -/
def Cause.isAboutFile : Cause → Bool
  | missingFile .. | unreadableFile .. => true
  | _ => false

/-- A proper failure with a given place, or with none yet, which shows no line of source. It is
about a file or about a text. A fault outside the source has no place. -/
def Failure.IsAt (location : Option Location) (aboutFile : Bool) : Failure → Prop
  | error d => d.cause.isInternal = false ∧ d.location = location ∧ d.sourceLine = none ∧
    d.cause.isAboutFile = aboutFile
  | fault f => f.isInternal = false
  | unfinished => False

section IsAt

variable {location : Option Location} {aboutFile : Bool} {f : Failure}

theorem Failure.IsAt.isInternal (h : f.IsAt location aboutFile) : f.isInternal = false := by
  cases f with
  | error d => exact h.1
  | fault f => exact h
  | unfinished => exact h.elim

theorem Failure.IsAt.ne_unfinished (h : f.IsAt location aboutFile) : f ≠ .unfinished := by
  rintro rfl
  exact h

end IsAt

theorem Failure.locate_ne_unfinished {f : Failure} (h : f ≠ .unfinished) (location : Location)
    (line : Option String) : f.locate location line ≠ .unfinished := by
  cases f with
  | unfinished => exact absurd rfl h
  | error | fault => exact nofun

theorem fail_inj {cause cause' : Cause} :
    (fail cause : Except Failure α) = fail cause' ↔ cause = cause' :=
  ⟨fun h => congrArg Diagnostic.cause (Failure.error.inj (Except.error.inj h)), fun h => h ▸ rfl⟩

theorem fail_ne_ok {cause : Cause} {a : α} : fail cause ≠ .ok a :=
  nofun

theorem fail_ne_fault {cause : Cause} {f : Fault} :
    (fail cause : Except Failure α) ≠ .error (.fault f) :=
  nofun

theorem fault_ne_fail {cause : Cause} {f : Fault} :
    (.error (.fault f) : Except Failure α) ≠ fail cause :=
  nofun

theorem ok_ne_fail {cause : Cause} {a : α} : .ok a ≠ fail cause :=
  nofun

/-- An operation on texts: it ends in a value with a property, or in a proper failure that has no
place yet. -/
abbrev Bare (P : α → Prop) (x : Except Failure α) : Prop :=
  Ends (Failure.IsAt none false) P x

/-- An operation on files: it ends in a value with a property, or in a proper failure about a file
with a given place. -/
abbrev ProperAt (location : Option Location) (P : α → Prop) (x : Except Failure α) : Prop :=
  Ends (Failure.IsAt location true) P x

section Failing

variable {P : α → Prop} {x : Except Failure α} {location : Option Location} {cause : Cause}

theorem Bare.proper (h : Bare P x) : Proper P x :=
  h.mono_error fun _ hf => hf.isInternal

theorem ProperAt.proper (h : ProperAt location P x) : Proper P x :=
  h.mono_error fun _ hf => hf.isInternal

/-- Among the failures with a property are all proper reports on a text. -/
def Reports (E : Failure → Prop) : Prop :=
  ∀ cause : Cause, cause.isInternal = false → cause.isAboutFile = false → E (.ofCause cause)

theorem Reports.fail {E : Failure → Prop} (reports : Reports E) (h : cause.isInternal = false)
    (plain : cause.isAboutFile = false) : Ends E P (fail cause) :=
  .error (reports cause h plain)

theorem reports_isAt : Reports (Failure.IsAt none false) :=
  fun _ h plain => ⟨h, rfl, rfl, plain⟩

theorem proper_fail (h : cause.isInternal = false) (plain : cause.isAboutFile = false) :
    Bare P (fail cause) :=
  reports_isAt.fail h plain

theorem proper_failAt (h : cause.isInternal = false) (about : cause.isAboutFile = true) :
    ProperAt location P (failAt cause location) :=
  .error ⟨h, rfl, rfl, about⟩

end Failing

/-! ## Operand texts -/

theorem proper_oneOperand (name args : String) :
    Bare (fun a => Text.words args = [a]) (oneOperand name args) := by
  unfold oneOperand
  split
  · next h => exact .ok h
  · exact proper_fail rfl rfl

theorem proper_twoOperands (name args : String) :
    Bare (fun p => Text.words args = [p.1, p.2]) (twoOperands name args) := by
  unfold twoOperands
  split
  · next h => exact .ok h
  · exact proper_fail rfl rfl

theorem proper_splitOperands (name args : String) (counts : List Int) (expected : Option String) :
    Bare (fun operands => operands = Text.words args ∧ (operands.length : Int) ∈ counts)
      (splitOperands name args counts expected) := by
  unfold splitOperands
  dsimp only
  split
  · next h => exact .ok ⟨rfl, List.contains_iff_mem.mp h⟩
  · exact proper_fail rfl rfl

/-! ## Values and symbols -/

/-- A value that passes a check is unchanged and fits. -/
theorem proper_check (w : Width) (value : Int) (shown : String) :
    Bare (fun v => v = value ∧ 0 ≤ value ∧ value < w.limit) (w.check value shown) := by
  unfold Width.check
  -- the range is tested last, behind the sign and the tests of an unusual width
  split
  · exact proper_fail rfl rfl
  · next hneg =>
    split
    · exact .error rfl
    · split
      · exact .error rfl
      · split
        · exact .error rfl
        · split
          · next hfits =>
            have hlt := Width.fits_iff.mp hfits
            rw [Int.toNat_of_nonneg (Int.not_lt.mp hneg)] at hlt
            exact .ok ⟨rfl, Int.not_lt.mp hneg, hlt⟩
          · split
            · exact .error rfl
            · exact proper_fail rfl rfl

theorem proper_parse_literal (w : Width) (s : String) :
    Bare (fun v => 0 ≤ v ∧ v < w.limit) (Literal.parse w s) := by
  unfold Literal.parse
  split
  · exact .error rfl
  · split
    · exact proper_fail rfl rfl
    · dsimp only
      split
      · exact proper_fail rfl rfl
      · split
        · exact .error rfl
        · exact (proper_check _ _ _).mono fun v hv => hv.1 ▸ hv.2

theorem proper_lookup (t : SymbolTable) (name : String) :
    Bare (fun v => t.values.get? name = some v) (t.lookup name) := by
  rw [SymbolTable.get?_values]
  unfold SymbolTable.lookup
  split
  · next h => exact .ok (by rw [h]; rfl)
  · exact proper_fail rfl rfl

theorem proper_scope (b : Bindings Int) (name : String) :
    Bare (fun v => b.get? name = some v) (b.scope name) := by
  unfold Bindings.scope
  split
  · next h => exact .ok h
  · exact proper_fail rfl rfl

/-- A scope that does not fail with a fault of the assembler. -/
def Scope.IsProper (scope : Scope) : Prop :=
  ∀ name, Bare (fun _ => True) (scope name)

theorem isProper_lookup (t : SymbolTable) : Scope.IsProper t.lookup :=
  fun name => (proper_lookup t name).mono fun _ _ => trivial

theorem isProper_scope (b : Bindings Int) : Scope.IsProper b.scope :=
  fun name => (proper_scope b name).mono fun _ _ => trivial

theorem proper_checkValue (name : String) (value : Int) :
    Bare (fun v => v = value ∧ 0 ≤ value ∧ value < 0x10000)
      (SymbolTable.checkValue name value) := by
  have hwrite : Bare (fun _ => True) (writeDecimal value) := by
    unfold writeDecimal
    split
    · exact .error rfl
    · exact .ok trivial
  exact hwrite.bind fun shown _ => proper_check .word value _

/-- A symbol is defined when its value is a word, and then it is bound to the value. -/
theorem proper_define (t : SymbolTable) (name : String) (value : Int) (location : Location) :
    Bare (fun t' => 0 ≤ value ∧ value < 0x10000 ∧
      t' = ⟨t.symbols.insert name ⟨value, location, false⟩⟩)
      ((SymbolTable.define name value location).exec t).result := by
  cases h : SymbolTable.checkValue name value with
  | error f =>
    rw [Effect.exec, SymbolTable.define_of_error h]
    exact .error ((proper_checkValue name value).of_error h)
  | ok v =>
    obtain ⟨rfl, hlo, hhi⟩ := (proper_checkValue name value).of_ok h
    rw [Effect.exec, SymbolTable.define_of_ok h]
    exact .ok ⟨hlo, hhi, rfl⟩

/-! ## Texts of several lines -/

theorem proper_longStringSeparator (mode : String) :
    Bare (fun _ => mode = "keep-newlines" ∨ mode = "strip-newlines")
      (longStringSeparator mode) := by
  unfold longStringSeparator
  split
  · exact .ok (.inl rfl)
  · exact .ok (.inr rfl)
  · exact proper_fail rfl rfl

/-- The lines behind a long string are a tail of the lines to be read. -/
theorem proper_readLongString (body : List String) (count : Nat) (pending : List SourceLine) :
    Bare (fun taken => taken.rest <:+ pending) (readLongString body count pending) := by
  induction pending generalizing body count with
  | nil => exact proper_fail rfl rfl
  | cons line rest ih =>
    rw [readLongString]
    split
    · -- the line closes the text
      exact .ok (List.suffix_cons _ _)
    · exact (ih _ _).mono fun taken h => h.trans (List.suffix_cons _ _)

/-! ## Files -/

theorem proper_find (search : Search) (name : String) (location : Option Location) :
    ProperAt location (fun path => Search.firstFile search.files (search.candidates name location) =
      .ok (some path)) (search.find name location) := by
  unfold Search.find
  split
  · next h => exact .ok h
  · exact proper_failAt rfl rfl
  · exact .error rfl

theorem proper_readBytes (fs : FileSystem) (path : FilePath) (location : Option Location) :
    ProperAt location (fun bytes => fs.read path.text = .ok bytes)
      (Search.readBytes fs path location) := by
  unfold Search.readBytes
  split
  · next h => exact .ok h
  · split
    · exact .error rfl
    · exact proper_failAt rfl rfl

theorem proper_readLines (fs : FileSystem) (path : FilePath) (location : Option Location) :
    ProperAt location (fun _ => ∃ bytes, fs.read path.text = .ok bytes)
      (Search.readLines fs path location) := by
  unfold Search.readLines
  refine (proper_readBytes fs path location).bind fun bytes hbytes => ?_
  split
  · exact .ok ⟨bytes, hbytes⟩
  · exact proper_failAt rfl rfl

theorem proper_isOpen (fs : FileSystem) (line : SourceLine) (path : FilePath) :
    Bare (fun b => b = (Search.openFiles line).any fun name =>
      fs.canonical (FilePath.ofString name) == fs.canonical path)
      (Search.isOpen fs line path) := by
  unfold Search.isOpen
  split
  · exact .error rfl
  · exact .ok rfl

end NibbleAsm
