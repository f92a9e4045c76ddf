import NibbleAsm.Text.Case
import NibbleAsm.Diagnostic

/-!
# The instruction set

Every instruction is one word of four nibbles: the opcode and three fields. There are
sixteen mnemonics, one for each opcode, and eight forms of operands.

## Main definitions

* `Mnemonic`: the sixteen instructions
* `Form`: the forms of operands
* `Mnemonic.ofName?`: the instruction that a word names, in any letter case
* `packWord`: the word of four nibbles
-/

namespace NibbleAsm

/-- The forms of operands. Instructions of one form differ only by their opcode. -/
inductive Form where
  | plain
  | byteRegister
  | sourceDestination
  | addressRegister
  | threeFields
  | shift
  | branch
  | register
  deriving DecidableEq, Repr

/-- The description of the operands of a form. -/
def Form.text : Form → String
  | plain => "no operands"
  | byteRegister => "2 operands (byte register)"
  | sourceDestination => "2 operands (source destination)"
  | addressRegister => "2 operands (address register)"
  | threeFields => "3 operands"
  | shift => "4 operands (register L|R amount register)"
  | branch => "2 or 3 operands"
  | register => "1 operand (register)"

/-- The tabulated name of a form. -/
def Form.name : Form → String
  | plain => "NONE"
  | byteRegister => "BYTE_REGISTER"
  | sourceDestination => "SOURCE_DEST"
  | addressRegister => "ADDRESS_REG"
  | threeFields => "THREE_FIELD"
  | shift => "SHIFT"
  | branch => "BRANCH"
  | register => "SINGLE_REG"

/-- The instructions of the machine. -/
inductive Mnemonic where
  | END
  | HBY
  | LBY
  | LOD
  | STR
  | ADD
  | SUB
  | ADI
  | SBI
  | AND
  | ORR
  | XOR
  | NOT
  | SHF
  | BRN
  | SPC
  deriving DecidableEq, Repr

namespace Mnemonic

/-- The instructions in the order of their opcodes. -/
def all : List Mnemonic :=
  [END, HBY, LBY, LOD, STR, ADD, SUB, ADI, SBI, AND, ORR, XOR, NOT, SHF, BRN, SPC]

/-- The high nibble of an instruction. -/
def opcode : Mnemonic → Int
  | END => 0x0
  | HBY => 0x1
  | LBY => 0x2
  | LOD => 0x3
  | STR => 0x4
  | ADD => 0x5
  | SUB => 0x6
  | ADI => 0x7
  | SBI => 0x8
  | AND => 0x9
  | ORR => 0xA
  | XOR => 0xB
  | NOT => 0xC
  | SHF => 0xD
  | BRN => 0xE
  | SPC => 0xF

/-- The form of an instruction's operands. -/
def form : Mnemonic → Form
  | END => .plain
  | HBY | LBY => .byteRegister
  | LOD | NOT => .sourceDestination
  | STR => .addressRegister
  | ADD | SUB | ADI | SBI | AND | ORR | XOR => .threeFields
  | SHF => .shift
  | BRN => .branch
  | SPC => .register

/-- The name of an instruction. -/
def name : Mnemonic → String
  | END => "END"
  | HBY => "HBY"
  | LBY => "LBY"
  | LOD => "LOD"
  | STR => "STR"
  | ADD => "ADD"
  | SUB => "SUB"
  | ADI => "ADI"
  | SBI => "SBI"
  | AND => "AND"
  | ORR => "ORR"
  | XOR => "XOR"
  | NOT => "NOT"
  | SHF => "SHF"
  | BRN => "BRN"
  | SPC => "SPC"

/-- The instruction that a word names, in any letter case. -/
def ofName? (word : String) : Option Mnemonic :=
  let word := Text.upper word
  all.find? (·.name = word)

/-- The entry of an instruction in the table of the instruction set. -/
def entry (m : Mnemonic) : String :=
  "InstructionInfo(" ++ m.name ++ ", $" ++ Text.hexDigits m.opcode.toNat ++ ", " ++
    m.form.name ++ ")"

end Mnemonic

/-- Checks that a value is a nibble. -/
def checkNibble (value : Int) : Except Failure Unit :=
  if 0 ≤ value ∧ value ≤ 0xF then .ok () else .error (.fault (.nibbleOutOfRange value))

/-- The word of an opcode and three fields. -/
def packWord (opcode a b c : Int) : Except Failure Int := do
  checkNibble opcode
  checkNibble a
  checkNibble b
  checkNibble c
  .ok (opcode * 0x1000 + a * 0x100 + b * 0x10 + c)

/-- The high and the low part of a value, divided at its low nibble. -/
def splitNibbles (value : Int) : Int × Int :=
  (value / 0x10, value % 0x10)

end NibbleAsm
