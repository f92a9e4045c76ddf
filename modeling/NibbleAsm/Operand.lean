import NibbleAsm.Literal
import NibbleAsm.Symbol.Table
import NibbleAsm.Text.Blank

/-!
# Operands

An operand is a literal, whose value is known as soon as it is read, or a symbol, whose
value is looked up once all symbols are defined. Both have to fit the field they are for.

## Main definitions

* `Operand.parse`: the operand that a word denotes
* `Operand.resolve`: the value of an operand
* `splitOperands`: the words of an operand text, in an accepted number
-/

namespace NibbleAsm

/-- A literal or a symbol, with the width of its field. -/
inductive Operand where
  | literal (value : Int) (width : Width)
  | symbol (name : String) (width : Width)
  deriving DecidableEq, Repr

namespace Operand

/-- The operand that a word denotes. -/
def parse (w : Width) (s : String) : Except Failure Operand :=
  if isLiteral s then (Literal.parse w s).map (literal · w) else .ok (symbol s w)

/-- The value of an operand. -/
def resolve (scope : Scope) : Operand → Except Failure Int
  | literal value _ => .ok value
  | symbol name w => do
    let value ← scope name
    w.check value name

/-- The width of the field of an operand. -/
def width : Operand → Width
  | literal _ w | symbol _ w => w

/-- Whether an operand is a literal. -/
def isLiteral : Operand → Bool
  | literal .. => true
  | symbol .. => false

/-- The text of an operand. -/
def text : Operand → String
  | literal value _ => Text.decimal value
  | symbol name _ => name

end Operand

/-- The description of the accepted numbers of operands. -/
def expectedCount (counts : List Int) : String :=
  Text.join " or " (counts.map Text.decimal) ++ if counts = [1] then " argument" else " arguments"

/-- Fails because `name` got the wrong number of operands. -/
def failCount {α : Type} (name expected received : String) : Except Failure α :=
  fail (.operandCount name expected received)

/-- The words of an operand text, if their number is accepted. -/
def splitOperands (name args : String) (counts : List Int) (expected : Option String) :
    Except Failure (List String) :=
  let operands := Text.words args
  if counts.contains (operands.length : Int) then .ok operands
  else failCount name (expected.getD (expectedCount counts)) args

/-- The only word of an operand text. -/
def oneOperand (name args : String) : Except Failure String :=
  match Text.words args with
  | [a] => .ok a
  | _ => failCount name (expectedCount [1]) args

/-- The two words of an operand text. -/
def twoOperands (name args : String) : Except Failure (String × String) :=
  match Text.words args with
  | [a, b] => .ok (a, b)
  | _ => failCount name (expectedCount [2]) args

end NibbleAsm
