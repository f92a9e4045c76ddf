import NibbleAsm.Bindings
import NibbleAsm.Effect
import NibbleAsm.Text.Case
import NibbleAsm.Text.EditDistance
import NibbleAsm.Width

/-!
# Symbol tables

A table binds symbol names to words. Every program starts from the addresses of the
devices and the register names. The last definition of a symbol wins, and one that
changes its value is noted.

## Main definitions

* `SymbolTable.predefined`: the table every program starts from
* `SymbolTable.define`: a symbol is defined in a table
* `SymbolTable.similar`: the names that may have been meant
* `SymbolTable.lookup`: the value of a symbol
* `Scope`: the values that operands refer to
-/

namespace NibbleAsm

/-- The value of a symbol and where it comes from. -/
structure Symbol where
  value : Int
  location : Location
  isPredefined : Bool
  deriving DecidableEq, Repr

/-- The values of symbols, as operands see them. -/
abbrev Scope := String → Except Failure Int

/-- The scope of some bindings, which has no suggestions for other names. -/
def Bindings.scope (b : Bindings Int) : Scope := fun name =>
  match b.get? name with
  | some value => .ok value
  | none => fail (.undefinedSymbol name [])

/-- The addresses of the devices. -/
def deviceAddresses : List (String × Int) :=
  [("sound", 0xD800), ("net-in", 0xDC00), ("net-out", 0xE000), ("storage-in", 0xE400),
   ("storage-out", 0xE800), ("tiles", 0xEC00), ("grid", 0xF400), ("cell-x-y-flip", 0xFD60),
   ("sprites", 0xFE8C), ("cell-colors", 0xFF8C), ("sprite-colors", 0xFFAC),
   ("keyboard", 0xFFFA), ("net-status", 0xFFFB), ("enable-bits", 0xFFFC),
   ("storage-read-address", 0xFFFD), ("storage-write-address", 0xFFFE),
   ("frame-interrupt-vector", 0xFFFF)]

/-- The names of the sixteen registers. -/
def registerNames : List (String × Int) :=
  (List.range 16).map fun n => ("R" ++ Text.hexDigits n, (n : Int))

/-- The names that every program has, with their values. -/
def predefinedNames : List (String × Int) :=
  deviceAddresses ++ registerNames

theorem nodup_predefinedNames : (predefinedNames.map Prod.fst).Nodup := by
  decide +kernel

/-- The symbols of a program, in the order in which they were first defined. -/
structure SymbolTable where
  symbols : Bindings Symbol
  deriving Repr

namespace SymbolTable

/-- The table without symbols. -/
def empty : SymbolTable := ⟨.empty⟩

/-- The table that every program starts from. -/
def predefined : SymbolTable :=
  ⟨Bindings.map (⟨·, .predefined, true⟩) ⟨predefinedNames, nodup_predefinedNames⟩⟩

/-- The symbol of a name. -/
def get? (t : SymbolTable) (name : String) : Option Symbol :=
  t.symbols.get? name

/-- The number of symbols. -/
def size (t : SymbolTable) : Nat :=
  t.symbols.size

/-- The values of all symbols, in order. -/
def values (t : SymbolTable) : Bindings Int :=
  t.symbols.map Symbol.value

/-- What is noted when a symbol with an old definition gets a value. -/
def redefinition (old : Symbol) (name : String) (value : Int) (location : Location) :
    List Note :=
  if old.value = value then []
  else if old.isPredefined then [.reassigned location name old.value value]
  else [.redefined location name old.value old.location]

/-- A value for a name, if it is a word. The value is written down before it is checked, for the
case that the check fails. -/
def checkValue (name : String) (value : Int) : Except Failure Int := do
  let shown ← writeDecimal value
  Width.word.check value (name ++ " = " ++ shown)

/-- Defines a symbol. -/
def define (name : String) (value : Int) (location : Location) : Effect SymbolTable Unit := do
  let value ← .ofExcept (checkValue name value)
  let t ← .get
  .notes ((t.get? name).elim [] (redefinition · name value location))
  .set ⟨t.symbols.insert name ⟨value, location, false⟩⟩

/-- Whether a name may have been meant by another: they are equal but for case, or one edit
apart, which is only tried when their lengths differ by at most one. -/
def resembles (name other : String) : Bool :=
  Text.lower other == Text.lower name ||
    (other.length ≤ name.length + 1 && name.length ≤ other.length + 1 &&
      Text.editDistance (Text.lower name) (Text.lower other) ≤ 1)

/-- The first three names of the table that may have been meant by a name. -/
def similar (t : SymbolTable) (name : String) : List String :=
  (t.symbols.names.filter (resembles name)).take 3

/-- The value of a symbol; a failure suggests similar names. -/
def lookup (t : SymbolTable) : Scope := fun name =>
  match t.get? name with
  | some symbol => .ok symbol.value
  | none => fail (.undefinedSymbol name (t.similar name))

end SymbolTable

end NibbleAsm
