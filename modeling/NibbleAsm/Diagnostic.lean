import NibbleAsm.FileSystem
import NibbleAsm.Location

/-!
# Diagnostics

An assembly fails with a diagnostic, which says what is wrong and, once the line is
known, where. A few failures are no fault of the source and carry no location.

## Main definitions

* `Cause`: what can be wrong with a source
* `Cause.message`, `Cause.hint`: its description, and a suggestion for fixing it
* `Diagnostic`: a cause with its location, hint and source line
* `Diagnostic.locate`: a diagnostic placed at a line, unless it has a place already
* `Diagnostic.text`: the full text of a diagnostic
* `Failure`: a diagnostic, or a fault outside the source
-/

namespace NibbleAsm

/-- The kinds of cause whose description is given by the one who reports it. -/
inductive Family where
  | general
  | structural
  | image
  | addressSpace
  deriving DecidableEq, Repr

/-- What can be wrong with a source. -/
inductive Cause where
  | malformedInteger (text : String)
  | tooLarge (text : String) (limit : Int)
  | negative (text : String)
  | undefinedSymbol (name : String) (similar : List String)
  | operandCount (name expected received : String)
  | badDirection (text : String)
  | badShiftAmount (amount : Int)
  | badValueCondition (text : String)
  | badFlagCondition (text : String)
  | badLabel (text : String)
  | badLongStringMode (mode : String)
  | unknownDirective (name : String)
  | unknownMnemonic (mnemonic : String)
  | missingFile (name : String) (searched : List String)
  | circularInclude (name : String)
  | unreadableFile (name reason : String)
  | targetBehind (target current : Int)
  | badSymbolName (name : String)
  | arrayNotOpened
  | arrayNotClosed
  | textAfterArray (text : String)
  | longStringNotOpened
  | longStringNotClosed
  | brokenImage (name : String) (bytes : Nat)
  | labelOutside (name : String) (index : Nat)
  | programTooLarge (words : Nat)
  | nothingAssembled
  | sizeMismatch (command : String) (emitted : Nat) (expected : Int)
  | stated (family : Family) (message : String)
  deriving DecidableEq, Repr

/-- The number of words that the machine can address. -/
def addressSpace : Nat := 0x10000

/-- Text in single quotes, as it stands. -/
def inQuotes (s : String) : String :=
  "'" ++ s ++ "'"

namespace Cause

/-- The description of a cause. -/
def message : Cause → String
  | malformedInteger text => "Malformed integer: " ++ inQuotes text
  | tooLarge text limit =>
    "Value must be less than " ++ Text.decimal limit ++ ": " ++ inQuotes text
  | negative text => "Negative numbers not allowed: " ++ inQuotes text
  | undefinedSymbol name _ => "undefined symbol " ++ inQuotes name
  | operandCount name expected received =>
    inQuotes name ++ " expected " ++ expected ++ ", received: " ++ inQuotes received
  | badDirection text => "Direction must be L or R, received: " ++ inQuotes text
  | badShiftAmount amount =>
    "Shift amount must be between 1 and 8, received: " ++ inQuotes (Text.decimal amount)
  | badValueCondition text =>
    "Invalid value condition, must be combination of NZP, received: " ++ inQuotes text
  | badFlagCondition text =>
    "Invalid flag condition, must be C V or -, received: " ++ inQuotes text
  | badLabel text => "Invalid label: " ++ inQuotes text
  | badLongStringMode mode => "Invalid .long-string mode: " ++ inQuotes mode
  | unknownDirective name => "Unknown directive: " ++ inQuotes name
  | unknownMnemonic mnemonic => "Unknown instruction: " ++ inQuotes mnemonic
  | missingFile name _ => "File not found: " ++ inQuotes name
  | circularInclude name => "Circular include of " ++ inQuotes name
  | unreadableFile name reason => "Cannot read " ++ inQuotes name ++ ": " ++ reason
  | targetBehind target current =>
    "Target address $" ++ Text.hex4 target ++ " is behind current address $" ++ Text.hex4 current
  | badSymbolName name => "cannot use " ++ inQuotes name ++ " as a symbol name"
  | arrayNotOpened => "Array must start with '['"
  | arrayNotClosed => "Array is missing its closing ']'"
  | textAfterArray text => "unexpected text after ']': " ++ inQuotes text
  | longStringNotOpened => "'.end-long-string' without '.long-string'"
  | longStringNotClosed => ".long-string is missing '.end-long-string'"
  | brokenImage name bytes =>
    inQuotes name ++ " is not a word image: " ++ toString bytes ++
      " bytes is not a whole number of words"
  | labelOutside name index =>
    "label " ++ inQuotes name ++ " at word " ++ toString index ++ " is outside the " ++
      toString addressSpace ++ "-word address space"
  | programTooLarge words =>
    "program needs " ++ toString words ++ " words, only " ++ toString addressSpace ++
      " are addressable"
  | nothingAssembled => "nothing has been assembled yet"
  | sizeMismatch command emitted expected =>
    "internal error: " ++ command ++ " emitted " ++ toString emitted ++ " words, expected " ++
      Text.decimal expected
  | stated _ message => message

/-- The suggestion for fixing a cause. At most three similar symbols are suggested. -/
def hint : Cause → Option String
  | malformedInteger text =>
    match text.toList with
    | '0' :: x :: rest =>
      if x = 'x' ∨ x = 'X' then some ("write hexadecimal as '$" ++ String.ofList rest ++ "'")
      else none
    | _ => none
  | undefinedSymbol _ similar =>
    if similar = [] then none
    else some ("did you mean " ++ Text.join ", " ((similar.take 3).map inQuotes) ++ "?")
  | badLabel _ => some "labels are written as '(name)' on a line of their own"
  | badLongStringMode _ => some "use 'keep-newlines' or 'strip-newlines'"
  | missingFile _ searched =>
    if searched = [] then none else some ("searched in: " ++ Text.join ", " searched)
  | _ => none

end Cause

/-- What is wrong, where, in which line, and how it may be fixed. -/
structure Diagnostic where
  cause : Cause
  location : Option Location
  hint : Option String
  sourceLine : Option String
  deriving DecidableEq, Repr

namespace Diagnostic

/-- A diagnostic without a place. -/
def ofCause (cause : Cause) : Diagnostic :=
  ⟨cause, none, cause.hint, none⟩

/-- A diagnostic with a given place, hint and source line. A hint that is given and not
empty wins over the hint of the cause. -/
def report (cause : Cause) (location : Option Location) (hint sourceLine : Option String) :
    Diagnostic :=
  let hint :=
    match hint with
    | none | some "" => cause.hint <|> hint
    | some _ => hint
  ⟨cause, location, hint, sourceLine⟩

/-- The diagnostic placed at a line, unless it has a place already: whoever knows the line
best speaks first. -/
def locate (d : Diagnostic) (location : Location) (sourceLine : Option String) : Diagnostic :=
  match d.location with
  | some _ => d
  | none => { d with location := some location, sourceLine := sourceLine <|> d.sourceLine }

/-- The description of a diagnostic. -/
def message (d : Diagnostic) : String :=
  d.cause.message

/-- The hint of a diagnostic as a line of its own, if it has one. -/
def hintLines (d : Diagnostic) : List String :=
  match d.hint with
  | none | some "" => []
  | some hint => ["hint: " ++ hint]

/-- The source line of a diagnostic, and a mark under the column if it is known. -/
def sourceLines (d : Diagnostic) : List String :=
  match d.location, d.sourceLine with
  | some location, some line =>
    let shown := "    " ++ line
    if location.column > 0 then
      [shown, String.ofList (List.replicate (3 + location.column.toNat) ' ') ++ "^"]
    else [shown]
  | _, _ => []

/-- The full text of a diagnostic: place and description, source line, hint. -/
def text (d : Diagnostic) : String :=
  let first :=
    match d.location with
    | some location => location.text ++ ": error: " ++ d.message
    | none => "error: " ++ d.message
  Text.join "\n" (first :: d.sourceLines ++ d.hintLines)

end Diagnostic

/-- Failures outside the source. -/
inductive Fault where
  | numeralTooLong (digits : Nat)
  | numberTooLong
  | unsupportedWidth (bits : Int)
  | negativeWidth
  | widthTooLarge
  | outOfMemory
  | nibbleOutOfRange (value : Int)
  | wordOutOfRange
  | file (error : FileError)
  deriving DecidableEq, Repr

/-- The longest decimal numeral that is read or written, in digits. -/
def maxDecimalDigits : Nat := 4300

/-- Whether a number has too many decimal digits to be written. The sign does not count. -/
def isOverlong (n : Int) : Bool :=
  (Nat.toDigits 10 n.natAbs).length > maxDecimalDigits

/-- The description of a numeral or a number that is too long, with its digits if they were
counted. -/
def overlongMessage (counted : String) : String :=
  "Exceeds the limit (" ++ toString maxDecimalDigits ++ " digits) for integer string conversion" ++
    counted ++ "; use sys.set_int_max_str_digits() to increase the limit"

/-- The description of a fault. One that would show a number that is too long is about its length
instead. -/
def Fault.message : Fault → String
  | numeralTooLong digits => overlongMessage (": value has " ++ toString digits ++ " digits")
  | numberTooLong => overlongMessage ""
  | unsupportedWidth bits => stating "unsupported bit limit: " bits
  | negativeWidth => "negative shift count"
  | widthTooLarge => "too many digits in integer"
  | outOfMemory => ""
  | nibbleOutOfRange value => stating "nibble out of range: " value
  | wordOutOfRange => "word out of range"
  | file error => error.message
where
  stating (what : String) (n : Int) : String :=
    if isOverlong n then overlongMessage "" else what ++ Text.decimal n

/-- Why an operation has no result. The last case is an assembly that does not come to an end,
because its files include one another again and again. -/
inductive Failure where
  | error (diagnostic : Diagnostic)
  | fault (fault : Fault)
  | unfinished
  deriving DecidableEq, Repr

namespace Failure

/-- A failure that has no place yet. -/
def ofCause (cause : Cause) : Failure :=
  error (.ofCause cause)

/-- The failure placed at a line, if it is about the source and has no place already. -/
def locate (f : Failure) (location : Location) (sourceLine : Option String) : Failure :=
  match f with
  | error d => error (d.locate location sourceLine)
  | f => f

/-- The full text of a failure. -/
def text : Failure → String
  | error d => d.text
  | fault f => f.message
  | unfinished => "the source includes itself without end"

end Failure

/-- Fails with a cause that has no place yet. -/
def fail {α : Type} (cause : Cause) : Except Failure α :=
  .error (.ofCause cause)

/-- A number in decimal, unless it is too long. -/
def writeDecimal (n : Int) : Except Failure String :=
  if isOverlong n then .error (.fault .numberTooLong) else .ok (Text.decimal n)

end NibbleAsm
