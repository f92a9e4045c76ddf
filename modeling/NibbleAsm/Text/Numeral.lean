/-!
# Written numbers

Addresses and words are shown in hexadecimal, in at least four places filled with
zeros; a sign takes one of the places.

## Main definitions

* `padLeft`, `padRight`: text filled up to a width
* `hexDigits`: the upper-case hexadecimal digits of a number
* `hex4`: a number in hexadecimal with four places
* `decimal`: a number in decimal
-/

namespace NibbleAsm.Text

/-- Text filled up on the left to a width. -/
def padLeft (fill : Char) (width : Nat) (s : String) : String :=
  String.ofList (List.replicate (width - s.length) fill) ++ s

/-- Text filled up with spaces on the right to a width. -/
def padRight (width : Nat) (s : String) : String :=
  s ++ String.ofList (List.replicate (width - s.length) ' ')

/-- The upper-case hexadecimal digits of a number. -/
def hexDigits (n : Nat) : String :=
  String.ofList ((Nat.toDigits 16 n).map Char.toUpper)

/-- A number in hexadecimal, filled with zeros to four places. -/
def hex4 (n : Int) : String :=
  if n < 0 then "-" ++ padLeft '0' 3 (hexDigits n.natAbs) else padLeft '0' 4 (hexDigits n.natAbs)

/-- A number in decimal. -/
def decimal (n : Int) : String :=
  toString n

/-- Texts joined by a separator. -/
def join (separator : String) (parts : List String) : String :=
  String.intercalate separator parts

end NibbleAsm.Text
