import NibbleAsm.Text.Numeral

/-!
# Source locations

A location names a line of a file, and possibly a column. Files that are not on disk have
names in angle brackets, such as `<input>`.

## Main definitions

* `Location`: a file, a line and a column
* `Location.text`: the text of a location
-/

namespace NibbleAsm

/-- A place in the source. Lines and columns count from one, and column zero is unknown. -/
structure Location where
  file : String
  line : Int
  column : Int
  deriving DecidableEq, Repr

namespace Location

/-- A line of a file. -/
def ofLine (file : String) (line : Int) : Location :=
  ⟨file, line, 0⟩

/-- The text of a location, with the column only if it is known. -/
def text (l : Location) : String :=
  let line := l.file ++ ":" ++ Text.decimal l.line
  if l.column > 0 then line ++ ":" ++ Text.decimal l.column else line

/-- The location of the symbols that every program has. -/
def predefined : Location :=
  ofLine "<predefined>" 0

/-- The location of the symbols defined from outside the source. -/
def define : Location :=
  ofLine "<define>" 0

end Location

end NibbleAsm
