import NibbleAsm.Text.Numeral
import NibbleAsm.Text.Printable

/-!
# Quoted text

Messages show a file name or a character in quotes. Single quotes are used unless the
text has a single quote and no double quote. The backslash, the chosen quote and every
character that is not printable are escaped.

## Main definitions

* `quote`: a text in quotes
* `quoteChar`: a character in quotes
-/

namespace NibbleAsm.Text

/-- The single quote. -/
def singleQuote : Char := '\x27'

/-- The double quote. -/
def doubleQuote : Char := '\x22'

/-- The lower-case hexadecimal digits of a number, filled with zeros to a width. -/
def lowerHex (width n : Nat) : String :=
  padLeft '0' width (String.ofList (Nat.toDigits 16 n))

/-- A character inside quotes. -/
def escapeChar (mark c : Char) : String :=
  if c = mark ∨ c = '\\' then String.ofList ['\\', c]
  else if c = '\t' then "\\t"
  else if c = '\n' then "\\n"
  else if c = '\r' then "\\r"
  else if isPrintable c then String.singleton c
  else if c.toNat ≤ 0xFF then "\\x" ++ lowerHex 2 c.toNat
  else if c.toNat ≤ 0xFFFF then "\\u" ++ lowerHex 4 c.toNat
  else "\\U" ++ lowerHex 8 c.toNat

/-- The quote that surrounds a text. -/
def quoteMark (cs : List Char) : Char :=
  if cs.contains singleQuote && !cs.contains doubleQuote then doubleQuote else singleQuote

/-- A text in quotes. -/
def quote (s : String) : String :=
  let mark := quoteMark s.toList
  String.singleton mark ++ join "" (s.toList.map (escapeChar mark)) ++ String.singleton mark

/-- A character in quotes. -/
def quoteChar (c : Char) : String :=
  quote (String.singleton c)

end NibbleAsm.Text
