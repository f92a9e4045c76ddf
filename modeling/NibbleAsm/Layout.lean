import NibbleAsm.Directive
import NibbleAsm.Source.Search

/-!
# Layout

The first pass over a source reads its lines, defines its symbols and places its commands
one behind the other. Lines of included files are put in front of the lines still to be
read. The pass ends with the first failure or with the last line.

## Main definitions

* `Placed`: a command with its address
* `Layout.State`: what is known between two lines
* `Layout.step`: the effect of one line
* `Layout.State.run`: the effect of all lines
* `Layout.build`: the layout of a source
-/

namespace NibbleAsm

/-- A command with its address and the line that asked for it. `title` is what the command
is called in a report of an internal error. -/
structure Placed where
  title : String
  command : Command
  size : Int
  address : Int
  location : Option Location
  source : String
  deriving Repr

/-- The placed commands and the symbols of a source. -/
structure Layout where
  placed : List Placed
  symbols : SymbolTable
  deriving Repr

namespace Layout

/-- What is known between two lines. -/
structure State where
  cursor : Cursor
  symbols : SymbolTable
  index : Nat
  placed : Array Placed
  log : Array Note
  deriving Repr

/-- A failure, with all that was noted before it. -/
structure Halt where
  failure : Failure
  log : Array Note
  deriving Repr

/-- The failure placed at a line. -/
def Halt.locate (line : SourceLine) (h : Halt) : Halt :=
  { h with failure := h.failure.locate line.location (some line.text) }

namespace State

/-- The state before the first line. -/
def start (cursor : Cursor) (symbols : SymbolTable) : State :=
  ⟨cursor, symbols, 0, #[], #[]⟩

/-- The state with a note taken. -/
def note (s : State) (n : Note) : State :=
  { s with log := s.log.push n }

/-- The result of an operation, whose failure ends the pass. -/
def lift {α : Type} (s : State) (result : Except Failure α) : Except Halt α :=
  result.mapError (⟨·, s.log⟩)

/-- Ends the pass. -/
def fail {α : Type} (s : State) (cause : Cause) : Except Halt α :=
  .error ⟨.ofCause cause, s.log⟩

/-- The state with a symbol defined. -/
def define (s : State) (name : String) (value : Int) (location : Location) :
    Except Halt State :=
  let (symbols, defined) := SymbolTable.define name value location s.symbols
  let s := { s with symbols := symbols, log := s.log ++ defined.log }
  s.lift (defined.result.map fun _ => s)

/-- The state with further lines taken. -/
def take {α : Type} (s : State) (taken : Taken α) : State :=
  { s with cursor := ⟨taken.rest, s.cursor.taken + taken.count⟩ }

/-- The state with a command placed at the current address. The program may fill the
address space and no more. -/
def place (s : State) (line : SourceLine) (title : String) (command : Command) :
    Except Halt State :=
  let index := s.index + command.size
  if index > addressSpace then s.fail (.programTooLarge index)
  else
    .ok { s with
      index := index
      placed := s.placed.push
        ⟨title, command, command.size, s.index, some line.location, line.content⟩ }

end State

/-- The name of a label line, which is in parentheses and holds neither parentheses nor
blanks. -/
def labelName? (content : String) : Option String :=
  match content.toList with
  | '(' :: rest =>
    let name := rest.dropLast
    if rest.getLast? = some ')' ∧ name ≠ [] ∧
        name.all fun c => c ≠ '(' ∧ c ≠ ')' ∧ !Text.isBlank c then
      some (String.ofList name)
    else none
  | _ => none

/-- The effect of a label line: its name is bound to the current address. -/
def label (line : SourceLine) (content : String) (s : State) : Except Halt State :=
  match labelName? content with
  | none => s.fail (.badLabel content)
  | some name =>
    if isLiteral name then s.fail (.badLabel content)
    else if s.index ≥ addressSpace then s.fail (.labelOutside name s.index)
    else s.define name s.index line.location

/-- The effect of a directive: the command it asks for and the state after it. -/
def directive (search : Search) (line : SourceLine) (d : Directive) (args : String) (s : State) :
    Except Halt (Command × State) :=
  match d with
  | .set => do
    let (name, value) ← s.lift (twoOperands ".set" args)
    if isLiteral name || Text.startsWith '(' name then s.fail (.badSymbolName name)
    else
      let operand ← s.lift (Operand.parse .word value)
      let value ← s.lift (operand.resolve s.symbols.lookup)
      let s ← s.define name value line.location
      .ok (.nothing, s)
  | .word => do
    let value ← s.lift (oneOperand ".word" args)
    let operand ← s.lift (Operand.parse .word value)
    .ok (.values [operand], s)
  | .array =>
    match args.toList with
    | '[' :: text => do
      let taken ← s.lift (readArray line (String.ofList text) #[] 0 s.cursor.pending)
      .ok (.values taken.value, s.take taken)
    | _ => s.fail .arrayNotOpened
  | .fillArray => do
    let (count, value) ← s.lift (twoOperands ".fill-array" args)
    let operand ← s.lift (Operand.parse .word count)
    let count ← s.lift (operand.resolve s.symbols.lookup)
    let value ← s.lift (Operand.parse .word value)
    .ok (.fill count.toNat value, s)
  | .move => do
    let address ← s.lift (oneOperand ".move" args)
    let operand ← s.lift (Operand.parse .word address)
    let target ← s.lift (operand.resolve s.symbols.lookup)
    if target < s.index then s.fail (.targetBehind target s.index)
    else .ok (.zeros (target.toNat - s.index), s)
  | .string => do
    let words ← s.lift (encodeText (Text.firstWord line.text).2)
    .ok (.block words, s)
  | .longString => do
    let mode ← s.lift (oneOperand ".long-string" args)
    let separator ← s.lift (longStringSeparator mode)
    let taken ← s.lift (readLongString [] 0 s.cursor.pending)
    let words ← s.lift (encodeText (Text.join separator taken.value))
    .ok (.block words, s.take taken)
  | .endLongString => s.fail .longStringNotOpened
  | .includeFile => do
    let name ← s.lift (oneOperand ".include" args)
    let name := unquote name
    let path ← s.lift (search.find name line.location)
    let s := s.note (.resolved name path.text)
    if ← s.lift (Search.isOpen search.files line path) then s.fail (.circularInclude name)
    else
      let texts ← s.lift (Search.readLines search.files path line.location)
      let s := { s with cursor := s.cursor.splice path.text texts line }
      .ok (.nothing, s.note (.included line.location path.text texts.length))
  | .copy => do
    let name ← s.lift (oneOperand ".copy" args)
    let name := unquote name
    let path ← s.lift (search.find name line.location)
    let s := s.note (.resolved name path.text)
    let words ← s.lift (Search.readWords search.files path line.location)
    .ok (.block words, s.note (.copied line.location words.length path.text))

/-- The effect of a line with some content. -/
def statement (search : Search) (line : SourceLine) (content : String) (s : State) :
    Except Halt State :=
  let (first, args) := Text.firstWord content
  if Text.startsWith '(' first then label line content s
  else if Text.startsWith '.' first then
    match Directive.ofName? first with
    | none => s.fail (.unknownDirective first)
    | some d => do
      let (command, s) ← directive search line d args s
      s.place line first command
  else do
    let command ← s.lift (Command.ofOperation first args)
    s.place line first command

/-- The effect of a line that has been taken from the cursor. A failure is placed at the
line, unless it has a place already. -/
def step (search : Search) (line : SourceLine) (s : State) : Except Halt State :=
  let content := line.content
  if content = "" then .ok s else (statement search line content s).mapError (Halt.locate line)

/-- The effect of all lines, or `none` if they do not come to an end. A file that is included
brings its lines in again and again if it includes itself unnoticed, so the run is a least fixed
point and not a recursion on the lines. -/
def State.run (search : Search) (s : State) : Option (Except Halt State) :=
  match s.cursor.pop? with
  | none => some (.ok s)
  | some (line, cursor) =>
    match step search line { s with cursor := cursor } with
    | .error h => some (.error h)
    | .ok s => s |>.run search
partial_fixpoint

/-- What is noted at the end of the pass. -/
def State.summary (s : State) : Note :=
  .laidOut s.cursor.taken s.placed.size s.index s.symbols.size

/-- The layout of the lines of a cursor, from a table of symbols. -/
def build (search : Search) (cursor : Cursor) (symbols : SymbolTable) : Traced Layout :=
  match (State.start cursor symbols).run search with
  | none => ⟨[], .error .unfinished⟩
  | some (.error h) => ⟨h.log.toList, .error h.failure⟩
  | some (.ok s) => ⟨s.log.toList ++ [s.summary], .ok ⟨s.placed.toList, s.symbols⟩⟩

end Layout

end NibbleAsm
