import NibbleAsm.Layout

/-!
# Programs

The second pass turns the placed commands of a layout into words, looking up every symbol
in the finished table.

## Main definitions

* `Program`: words, symbols and the rows of the listing
* `Program.ofLayout`: the program of a layout
-/

namespace NibbleAsm

/-- A command with its words. -/
structure Row where
  address : Int
  words : List Int
  location : Option Location
  source : String
  deriving DecidableEq, Repr

/-- An assembled program. -/
structure Program where
  words : List Int
  symbols : Bindings Int
  rows : List Row
  deriving Repr

/-- The description of a placed command in a report of an internal error. -/
def Placed.describe (p : Placed) : String :=
  "<" ++ p.title ++ " " ++ Text.quote p.source ++ " @ $" ++ Text.hex4 p.address ++ ">"

/-- The failure placed at the line of a command, if it has one. -/
def Placed.locate (p : Placed) (f : Failure) : Failure :=
  match p.location with
  | some location => f.locate location (some p.source)
  | none => f

/-- The words of a placed command, which have to be as many as were laid out. -/
def Placed.row (scope : Scope) (p : Placed) : Except Failure Row :=
  match p.command.words scope with
  | .error f => .error (p.locate f)
  | .ok words =>
    if words.length = p.size then .ok ⟨p.address, words, p.location, p.source⟩
    else failAt (.sizeMismatch p.describe words.length p.size) p.location

namespace Program

/-- The number of words of a program. -/
def size (p : Program) : Nat :=
  p.words.length

/-- The program of a layout. -/
def ofLayout (l : Layout) : Traced Program := do
  let rows ← .ofExcept (l.placed.mapM (Placed.row l.symbols.lookup))
  let words := rows.flatMap Row.words
  .notes [.generated words.length]
  return ⟨words, l.symbols.values, rows⟩

end Program

end NibbleAsm
