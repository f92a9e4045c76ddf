import NibbleAsm.Command
import NibbleAsm.Source.Line

/-!
# Directives

Directives start with a dot. They define symbols, emit data, pad the program and bring in
other files. This module holds their names and the parts of them that need no more than
the lines to be read; laying them out is the business of `NibbleAsm.Layout`.

## Main definitions

* `Directive`: the directives
* `Directive.ofName?`: the directive that a word names
* `readArray`: the elements of an array that may extend over several lines
* `readLongString`: the lines of a text that extends over several lines
* `unquote`: a file name without the quotes around it
* `directiveTitle`: the name of a directive in camel case
-/

namespace NibbleAsm

/-- The directives. -/
inductive Directive where
  | set
  | word
  | array
  | fillArray
  | move
  | string
  | longString
  | endLongString
  | includeFile
  | copy
  deriving DecidableEq, Repr

/-- The terminator of a long string. -/
def endLongStringName : String := ".end-long-string"

namespace Directive

/-- The names of the directives; a string has two. -/
def table : List (String × Directive) :=
  [(".set", set), (".word", word), (".array", array), (".fill-array", fillArray),
   (".move", move), (".string", string), (".str", string), (".long-string", longString),
   (endLongStringName, endLongString), (".include", includeFile), (".copy", copy)]

/-- The directive that a word names. Letter case counts. -/
def ofName? (word : String) : Option Directive :=
  table.lookup word

end Directive

/-- The name of a directive in camel case: its parts between hyphens are capitalized and
joined. -/
def directiveTitle (name : String) : String :=
  let parts := (name.toList.dropWhile (· = '.')).splitOn '-'
  Text.join "" (parts.map fun part => Text.capitalize (String.ofList part)) ++ "Directive"

/-- A file name without the double quotes around it. -/
def unquote (s : String) : String :=
  match s.toList with
  | first :: rest =>
    if first = Text.doubleQuote ∧ rest.getLast? = some Text.doubleQuote then
      String.ofList rest.dropLast
    else s
  | [] => s

/-- Lines read by a directive that extends over several lines: what was read, the lines
left, and the number of lines taken. -/
structure Taken (α : Type) where
  value : α
  rest : List SourceLine
  count : Nat
  deriving Repr

/-- The elements on the rest `text` of a line, behind those on earlier lines, and whether the
closing bracket is on it. Only blanks may follow the bracket. -/
def arrayLine (elements : Array Operand) (text : String) : Except Failure (Array Operand × Bool) :=
  let (body, after) := Text.cutAt ']' text
  match (Text.words body).mapM (Operand.parse .word) with
  | .error f => .error f
  | .ok more =>
    match after with
    | none => .ok (elements ++ more, false)
    | some after =>
      let extra := Text.trim after
      if extra = "" then .ok (elements ++ more, true) else fail (.textAfterArray extra)

/-- The elements of an array, up to the closing bracket. `text` is what is left of `line`,
and further lines are taken as long as no bracket is found. A failure on a line is placed
there. -/
def readArray (line : SourceLine) (text : String) (elements : Array Operand) (count : Nat)
    (pending : List SourceLine) : Except Failure (Taken (List Operand)) :=
  match arrayLine elements text with
  | .error f => .error (f.locate line.location (some line.text))
  | .ok (elements, true) => .ok ⟨elements.toList, pending, count⟩
  | .ok (elements, false) =>
    match pending with
    | [] => fail .arrayNotClosed
    | next :: rest => readArray next next.content elements (count + 1) rest
termination_by structural pending

/-- The texts of the lines of a long string, up to its terminator. -/
def readLongString (body : List String) (count : Nat) :
    List SourceLine → Except Failure (Taken (List String))
  | [] => fail .longStringNotClosed
  | line :: rest =>
    if line.content = endLongStringName then .ok ⟨body.reverse, rest, count + 1⟩
    else readLongString (line.text :: body) (count + 1) rest

/-- What stands between the lines of a long string, by its mode. -/
def longStringSeparator : String → Except Failure String
  | "keep-newlines" => .ok "\n"
  | "strip-newlines" => .ok ""
  | mode => fail (.badLongStringMode mode)

end NibbleAsm
