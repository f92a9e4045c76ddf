import NibbleAsm.Instruction.Encode
import NibbleAsm.Text.Quoted
import NibbleAsm.Text.Template

/-!
# Commands

A command is what a line of source asks for, as far as it is known when the line is read.
Its size is known at once; its words are found when all symbols are defined.

## Main definitions

* `Command`: the commands
* `Command.size`: the number of words of a command
* `Command.words`: the words of a command
* `Pseudo.rewrite?`: the instructions in place of pseudo-instructions
* `Command.ofPseudo`: the commands of pseudo-instructions
* `encodeText`: the words of a stored text
-/

namespace NibbleAsm

/-- What a line of source asks for. -/
inductive Command where
  | instruction (instruction : Instruction)
  | loadWord (value register : Operand)
  | values (operands : List Operand)
  | fill (count : Nat) (value : Operand)
  | block (words : List Int)
  | zeros (count : Nat)
  | nothing
  deriving DecidableEq, Repr

namespace Command

/-- The number of words of a command. -/
def size : Command → Nat
  | instruction _ => 1
  | loadWord .. => 2
  | values operands => operands.length
  | fill count _ => count
  | block words => words.length
  | zeros count => count
  | nothing => 0

/-- The words of a command. A word is loaded byte by byte, the high byte first. -/
def words (scope : Scope) : Command → Except Failure (List Int)
  | instruction i => do
    .ok [← i.word scope]
  | loadWord value register => do
    let value ← value.resolve scope
    let register ← register.resolve scope
    let (a, b) := splitNibbles (value / 0x100)
    let (c, d) := splitNibbles (value % 0x100)
    let high ← packWord Mnemonic.HBY.opcode a b register
    let low ← packWord Mnemonic.LBY.opcode c d register
    .ok [high, low]
  | values operands => operands.mapM (Operand.resolve scope)
  | fill count value => do
    .ok (List.replicate count (← value.resolve scope))
  | block words => .ok words
  | zeros count => .ok (List.replicate count 0)
  | nothing => .ok []

end Command

/-- The mnemonics that stand for other instructions. -/
inductive Pseudo where
  | CPY
  | NOP
  | INC
  | DEC
  | JMP
  | WRD
  deriving DecidableEq, Repr

namespace Pseudo

/-- All of them. -/
def all : List Pseudo := [CPY, NOP, INC, DEC, JMP, WRD]

/-- The name of a pseudo-instruction. -/
def name : Pseudo → String
  | CPY => "CPY"
  | NOP => "NOP"
  | INC => "INC"
  | DEC => "DEC"
  | JMP => "JMP"
  | WRD => "WRD"

/-- The pseudo-instruction that a word names, in any letter case. -/
def ofName? (word : String) : Option Pseudo :=
  let word := Text.upper word
  all.find? (·.name = word)

/-- An instruction in place of a pseudo-instruction: its mnemonic, the template of its operands, and
the number of operands that the template is filled with. -/
structure Rewrite where
  target : Mnemonic
  template : String
  operandCount : Nat
  deriving DecidableEq, Repr

/-- The instruction for the operands of a pseudo-instruction with a given name. -/
def Rewrite.expand (r : Rewrite) (name args : String) : Except Failure Instruction := do
  let operands ← splitOperands name args [r.operandCount] none
  Instruction.ofMnemonic r.target (Text.fillTemplate r.template operands)

/-- What stands for a pseudo-instruction, unless it takes two instructions. Adding nothing copies,
and a branch on any sign of zero is always taken. -/
def rewrite? : Pseudo → Option Rewrite
  | CPY => some ⟨.ADI, "{0} 0 {1}", 2⟩
  | NOP => some ⟨.ADI, "R0 0 R0", 0⟩
  | INC => some ⟨.ADI, "{0} 1 {0}", 1⟩
  | DEC => some ⟨.SBI, "{0} 1 {0}", 1⟩
  | JMP => some ⟨.BRN, "0 NZP {0}", 1⟩
  | WRD => none

/-- The command that loads a word. -/
def loadWord (args : String) : Except Failure Command := do
  let (value, register) ← twoOperands WRD.name args
  let value ← Operand.parse .word value
  let register ← Operand.parse .nibble register
  .ok (.loadWord value register)

/-- The command that a pseudo-instruction stands for. -/
def expand (p : Pseudo) (args : String) : Except Failure Command :=
  match p.rewrite? with
  | some r => (r.expand p.name args).map .instruction
  | none => loadWord args

end Pseudo

/-- The command of the pseudo-instruction that a word names. -/
def Command.ofPseudo (word args : String) : Except Failure Command :=
  match Pseudo.ofName? word with
  | some p => p.expand args
  | none => fail (.unknownMnemonic word)

/-- The command of an instruction or pseudo-instruction. -/
def Command.ofOperation (word args : String) : Except Failure Command :=
  match Mnemonic.ofName? word with
  | some m => (Instruction.ofMnemonic m args).map .instruction
  | none => Command.ofPseudo word args

/-- The word of a character. -/
def charWord (c : Char) : Except Failure Int :=
  Width.word.check c.toNat (Text.quoteChar c)

/-- The words of a stored text: its length, then its characters. -/
def encodeText (s : String) : Except Failure (List Int) := do
  let characters ← s.toList.mapM charWord
  let count := characters.length
  let length ← Width.word.check count ("string of " ++ toString count ++ " characters")
  .ok (length :: characters)

end NibbleAsm
