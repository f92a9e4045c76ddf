import NibbleAsm.Instruction.Basic
import NibbleAsm.Operand

/-!
# Instructions

An instruction is read in two steps. Its operands are split and checked as soon as its
line is read; its word is found once all symbols are defined.

## Main definitions

* `Direction`, `Flag`, `Condition`: the operands that are no values
* `Instruction.parse`: the instruction of a mnemonic and its operand text
* `Instruction.word`: the word of an instruction
* `Instruction.encode`: both at once
-/

namespace NibbleAsm

/-- The directions of a shift. -/
inductive Direction where
  | left
  | right
  deriving DecidableEq, Repr

/-- The direction that a word denotes. -/
def Direction.parse : String → Except Failure Direction
  | "L" => .ok .left
  | "R" => .ok .right
  | s => fail (.badDirection s)

/-- The flags that a branch can test; `never` is set at no time. -/
inductive Flag where
  | never
  | carry
  | overflow
  deriving DecidableEq, Repr

/-- The code of a flag. -/
def Flag.code : Flag → Int
  | never => 0
  | carry => 1
  | overflow => 2

/-- The condition of a branch: the signs of a value on which it is taken, or a flag. -/
inductive Condition where
  | value (negative zero positive : Bool)
  | flag (flag : Flag)
  deriving DecidableEq, Repr

namespace Condition

/-- The condition nibble. Tests of a flag have the high bit. -/
def nibble : Condition → Int
  | value n z p => (if n then 4 else 0) + (if z then 2 else 0) + (if p then 1 else 0)
  | flag f => 8 + f.code

/-- The condition on a value that a word of the letters N, Z and P denotes. -/
def parseValue (s : String) : Except Failure Condition :=
  let letters := s.toList
  if letters ≠ [] ∧ letters.all fun c => c = 'N' ∨ c = 'Z' ∨ c = 'P' then
    .ok (value (letters.contains 'N') (letters.contains 'Z') (letters.contains 'P'))
  else fail (.badValueCondition s)

/-- The condition on a flag that a word denotes. -/
def parseFlag : String → Except Failure Condition
  | "V" => .ok (flag .overflow)
  | "C" => .ok (flag .carry)
  | "-" => .ok (flag .never)
  | s => fail (.badFlagCondition s)

end Condition

/-- The operands of an instruction, by form. -/
inductive Fields where
  | plain
  | byteRegister (byte target : Operand)
  | sourceDestination (source destination : Operand)
  | addressRegister (address stored : Operand)
  | threeFields (first second third : Operand)
  | shift (source : Operand) (direction : Direction) (amount destination : Operand)
  | branch (condition : Condition) (value address : Operand)
  | register (target : Operand)
  deriving DecidableEq, Repr

/-- An instruction, with its operands as they were written. -/
structure Instruction where
  mnemonic : Mnemonic
  fields : Fields
  operands : List String
  deriving DecidableEq, Repr

/-- A shift amount, if it is one to eight. -/
def checkShiftAmount (amount : Int) : Except Failure Int :=
  if 1 ≤ amount ∧ amount ≤ 8 then .ok amount else fail (.badShiftAmount amount)

namespace Fields

/-- The operand of a register or an immediate. -/
def nibble (s : String) : Except Failure Operand :=
  Operand.parse .nibble s

/-- The operands that words denote in a form, or `none` if their number is not accepted. -/
def parse? : Form → List String → Option (Except Failure Fields)
  | .plain, [] => some (.ok plain)
  | .byteRegister, [a, b] => some do
    let byte ← Operand.parse .byte a
    let target ← nibble b
    .ok (byteRegister byte target)
  | .sourceDestination, [a, b] => some do
    let source ← nibble a
    let destination ← nibble b
    .ok (sourceDestination source destination)
  | .addressRegister, [a, b] => some do
    let address ← nibble a
    let stored ← nibble b
    .ok (addressRegister address stored)
  | .threeFields, [a, b, c] => some do
    let first ← nibble a
    let second ← nibble b
    let third ← nibble c
    .ok (threeFields first second third)
  | .shift, [a, b, c, d] => some do
    let direction ← Direction.parse b
    let source ← nibble a
    let amount ← Operand.parse .word c
    let destination ← nibble d
    match amount with
    | .literal value _ => discard (checkShiftAmount value)
    | .symbol .. => .ok ()
    .ok (shift source direction amount destination)
  | .branch, [a, b, c] => some do
    let condition ← Condition.parseValue b
    let value ← nibble a
    let address ← nibble c
    .ok (branch condition value address)
  | .branch, [a, b] => some do
    let condition ← Condition.parseFlag a
    let address ← nibble b
    .ok (branch condition (.literal 0 .nibble) address)
  | .register, [a] => some do
    let target ← nibble a
    .ok (register target)
  | _, _ => none

/-- The three fields of the word. A byte is divided into its nibbles; a shift holds one less
than its amount, and eight more for a shift to the right. -/
def nibbles (scope : Scope) : Fields → Except Failure (Int × Int × Int)
  | plain => .ok (0, 0, 0)
  | byteRegister byte target => do
    let (high, low) := splitNibbles (← byte.resolve scope)
    .ok (high, low, ← target.resolve scope)
  | sourceDestination source destination => do
    .ok (← source.resolve scope, 0, ← destination.resolve scope)
  | addressRegister address stored => do
    .ok (← address.resolve scope, ← stored.resolve scope, 0)
  | threeFields first second third => do
    .ok (← first.resolve scope, ← second.resolve scope, ← third.resolve scope)
  | shift source direction amount destination => do
    let amount ← checkShiftAmount (← amount.resolve scope)
    let field := amount - 1 + if direction = .right then 8 else 0
    .ok (← source.resolve scope, field, ← destination.resolve scope)
  | branch condition value address => do
    .ok (← value.resolve scope, ← address.resolve scope, condition.nibble)
  | register target => do
    .ok (0, 0, ← target.resolve scope)

end Fields

namespace Instruction

/-- An instruction with its operand text. -/
def ofMnemonic (m : Mnemonic) (args : String) : Except Failure Instruction :=
  let operands := Text.words args
  match Fields.parse? m.form operands with
  | some fields => fields.map (⟨m, ·, operands⟩)
  | none => failCount m.name m.form.text args

/-- The instruction that a word and an operand text denote. -/
def parse (word args : String) : Except Failure Instruction :=
  match Mnemonic.ofName? word with
  | some m => ofMnemonic m args
  | none => fail (.unknownMnemonic word)

/-- The word of an instruction. -/
def word (scope : Scope) (i : Instruction) : Except Failure Int := do
  let (a, b, c) ← i.fields.nibbles scope
  packWord i.mnemonic.opcode a b c

/-- The word of the instruction that a word and an operand text denote. -/
def encode (scope : Scope) (word args : String) : Except Failure Int := do
  (← parse word args).word scope

end Instruction

end NibbleAsm
