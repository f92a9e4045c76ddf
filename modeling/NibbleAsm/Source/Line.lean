import NibbleAsm.Location
import NibbleAsm.Text.Blank
import NibbleAsm.Text.Lines

/-!
# Source lines

A line of source remembers its file, its number there and the files whose inclusion led
to it. What it says is its content: the text without comment and outer blanks.

## Main definitions

* `stripComment`: the significant part of a text
* `SourceLine`: a line of source
* `Cursor`: the lines still to be read
* `Cursor.pop?`, `Cursor.splice`: taking the next line, and putting a file in front
-/

namespace NibbleAsm

/-- The directives whose text is taken as it stands, number signs included. -/
def rawDirectives : List String := [".string", ".str"]

/-- A text without its comment and outer blanks. A number sign starts a comment, except
behind a directive that takes its text as it stands. -/
def stripComment (s : String) : String :=
  let trimmed := Text.trim s
  if rawDirectives.contains (Text.firstWord trimmed).1 then trimmed
  else Text.trim (Text.before '#' trimmed)

/-- A line of source. `chain` holds the files that led to it, outermost first, its own file
last. -/
structure SourceLine where
  file : String
  number : Nat
  text : String
  chain : List String
  deriving DecidableEq, Repr

namespace SourceLine

/-- The significant part of a line. -/
def content (l : SourceLine) : String :=
  stripComment l.text

/-- The location of a line. -/
def location (l : SourceLine) : Location :=
  .ofLine l.file l.number

end SourceLine

/-- The lines of a file, numbered from one. `chain` holds the files that led to it. -/
def numberLines (file : String) (chain : List String) (texts : List String) : List SourceLine :=
  let chain := chain ++ [file]
  texts.mapIdx fun i text => ⟨file, i + 1, Text.chomp text, chain⟩

/-- The lines still to be read, and how many have been. -/
structure Cursor where
  pending : List SourceLine
  taken : Nat
  deriving DecidableEq, Repr

namespace Cursor

/-- No lines. -/
def empty : Cursor := ⟨[], 0⟩

/-- The next line. -/
def peek? (c : Cursor) : Option SourceLine :=
  c.pending.head?

/-- The next line, and the cursor behind it. -/
def pop? (c : Cursor) : Option (SourceLine × Cursor) :=
  match c.pending with
  | [] => none
  | line :: rest => some (line, ⟨rest, c.taken + 1⟩)

/-- The cursor with the lines of a file in front; `parent` is the line that asked for them. -/
def splice (c : Cursor) (file : String) (texts : List String) (parent : Option SourceLine) :
    Cursor :=
  let chain := (parent.map SourceLine.chain).getD []
  { c with pending := numberLines file chain texts ++ c.pending }

end Cursor

end NibbleAsm
