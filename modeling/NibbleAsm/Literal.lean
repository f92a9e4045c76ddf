import NibbleAsm.Text.Digit
import NibbleAsm.Width

/-!
# Literals

A literal is an unsigned number. The first character chooses the radix: a percent sign
for binary, a dollar sign for hexadecimal, anything else for decimal. Underscores
between the digits are ignored. A sign is read, but a negative value fits no field. A digit and an
`x` in front, which mark a hexadecimal number elsewhere, are refused.

## Main definitions

* `isLiteral`: whether a word is a literal rather than a symbol
* `Radix`: the three radixes
* `Radix.digits?`: the digits of a numeral
* `Literal.hasForeignMark`: the start of a hexadecimal number elsewhere
* `Literal.parse`: the value of a literal that fits a width
-/

namespace NibbleAsm

/-- Whether a word starts like a number rather than a symbol. -/
def isLiteral (s : String) : Bool :=
  match s.toList with
  | [] => false
  | c :: _ => c = '$' || c = '%' || Text.isDigit c

/-- The radixes of literals. -/
inductive Radix where
  | binary
  | decimal
  | hexadecimal
  deriving DecidableEq, Repr

namespace Radix

/-- The number of digits of a radix. -/
def base : Radix → Nat
  | binary => 2
  | decimal => 10
  | hexadecimal => 16

/-- The value of a hexadecimal digit in either case. -/
def hexValue? (c : Char) : Option Nat :=
  if '0' ≤ c ∧ c ≤ '9' then some (c.toNat - 0x30)
  else if 'A' ≤ c ∧ c ≤ 'F' then some (c.toNat - 0x37)
  else if 'a' ≤ c ∧ c ≤ 'f' then some (c.toNat - 0x57)
  else none

/-- The value of a digit of a radix. -/
def digit? (r : Radix) (c : Char) : Option Nat :=
  (hexValue? c).filter (· < r.base)

/-- The digits of a numeral without its underscores, if there are any and all are digits
of the radix. -/
def digits? (r : Radix) (cs : List Char) : Option (List Nat) :=
  ((cs.filter (· ≠ '_')).mapM r.digit?).filter (· ≠ [])

/-- The value of digits, the most significant first. -/
def value (r : Radix) (digits : List Nat) : Nat :=
  digits.foldl (fun n d => n * r.base + d) 0

end Radix

namespace Literal

/-- The radix and the body of a literal. -/
def split : List Char → Radix × List Char
  | '%' :: body => (.binary, body)
  | '$' :: body => (.hexadecimal, body)
  | body => (.decimal, body)

/-- Whether a body has a minus sign, and its numeral. -/
def splitSign : List Char → Bool × List Char
  | '+' :: numeral => (false, numeral)
  | '-' :: numeral => (true, numeral)
  | numeral => (false, numeral)

/-- Whether a text starts with a digit and an `x`, like a hexadecimal number elsewhere. -/
def hasForeignMark : List Char → Bool
  | digit :: mark :: _ => Text.isDecimal digit && (mark = 'x' || mark = 'X')
  | _ => false

/-- The value of a literal that fits a width. -/
def parse (w : Width) (s : String) : Except Failure Int :=
  if !w.isSupported then .error (.fault (.unsupportedWidth w.bits))
  else if hasForeignMark s.toList then fail (.malformedInteger s)
  else
    let (radix, body) := split s.toList
    let (minus, numeral) := splitSign body
    match radix.digits? numeral with
    | none => fail (.malformedInteger s)
    | some digits =>
      if radix = .decimal ∧ digits.length > maxDecimalDigits then
        .error (.fault (.numeralTooLong digits.length))
      else
        let value : Int := radix.value digits
        w.check (if minus then -value else value) s

end Literal

end NibbleAsm
