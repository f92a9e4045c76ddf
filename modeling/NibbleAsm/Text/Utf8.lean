import NibbleAsm.Text.Numeral

/-!
# UTF-8

Source files are sequences of bytes and are read as UTF-8. A faulty file is reported by
its first bad sequence: a byte that starts no character, a character broken off by a
byte that cannot continue it, or one cut short by the end of the file. Every text has an encoding,
since its characters are Unicode scalar values and none is a surrogate that stands alone.

## Main definitions

* `Utf8.encode`: the bytes of a list of characters
* `Utf8.decode`: the characters of a list of bytes, or the first fault
* `Utf8.Fault.message`: the description of a fault
-/

namespace NibbleAsm.Text.Utf8

/-- What is wrong with a sequence of bytes. -/
inductive Reason where
  | invalidStart
  | invalidContinuation
  | unexpectedEnd
  deriving DecidableEq, Repr

/-- A bad sequence: its position, its first byte and its length. -/
structure Fault where
  position : Nat
  byte : UInt8
  length : Nat
  reason : Reason
  deriving DecidableEq, Repr

/-- The description of a reason. -/
def Reason.text : Reason → String
  | invalidStart => "invalid start byte"
  | invalidContinuation => "invalid continuation byte"
  | unexpectedEnd => "unexpected end of data"

/-- The description of a fault. -/
def Fault.message (f : Fault) : String :=
  let place :=
    if f.length = 1 then
      "byte 0x" ++ padLeft '0' 2 (String.ofList (Nat.toDigits 16 f.byte.toNat)) ++
        " in position " ++ toString f.position
    else
      "bytes in position " ++ toString f.position ++ "-" ++ toString (f.position + f.length - 1)
  "'utf-8' codec can't decode " ++ place ++ ": " ++ f.reason.text

/-- The byte with a given value. -/
def byte (n : Nat) : UInt8 :=
  UInt8.ofNat n

/-- The bytes of a character. -/
def encodeChar (c : Char) : List UInt8 :=
  let n := c.toNat
  if n < 0x80 then [byte n]
  else if n < 0x800 then [byte (0xC0 + n / 0x40), byte (0x80 + n % 0x40)]
  else if n < 0x10000 then
    [byte (0xE0 + n / 0x1000), byte (0x80 + n / 0x40 % 0x40), byte (0x80 + n % 0x40)]
  else
    [byte (0xF0 + n / 0x40000), byte (0x80 + n / 0x1000 % 0x40), byte (0x80 + n / 0x40 % 0x40),
      byte (0x80 + n % 0x40)]

/-- The bytes of a list of characters. -/
def encode (cs : List Char) : List UInt8 :=
  cs.flatMap encodeChar

/-- Whether a byte continues a character. -/
def isContinuation (b : UInt8) : Bool :=
  0x80 ≤ b.toNat && b.toNat < 0xC0

/-- Whether a byte may stand second in a character that starts with `a`. Four first bytes
restrict it further, so that no character is written longer than needed, is a surrogate,
or lies beyond the last code point. -/
def isSecond (a b : UInt8) : Bool :=
  isContinuation b &&
    (if a = 0xE0 then 0xA0 ≤ b.toNat
    else if a = 0xED then b.toNat < 0xA0
    else if a = 0xF0 then 0x90 ≤ b.toNat
    else if a = 0xF4 then b.toNat < 0x90
    else true)

/-- The payload of a continuation byte. -/
def payload (b : UInt8) : Nat :=
  b.toNat - 0x80

/-- Decodes the bytes from `position` on, after the characters `out`, which are in
reverse order. -/
def decodeFrom (position : Nat) (out : List Char) : List UInt8 → Except Fault (List Char)
  | [] => .ok out.reverse
  | a :: rest =>
    let n := a.toNat
    if n < 0x80 then decodeFrom (position + 1) (Char.ofNat n :: out) rest
    else if n < 0xC2 then .error ⟨position, a, 1, .invalidStart⟩
    else if n < 0xE0 then
      match rest with
      | [] => .error ⟨position, a, 1, .unexpectedEnd⟩
      | b :: rest =>
        if isSecond a b then
          decodeFrom (position + 2) (Char.ofNat ((n - 0xC0) * 0x40 + payload b) :: out) rest
        else .error ⟨position, a, 1, .invalidContinuation⟩
    else if n < 0xF0 then
      match rest with
      | [] => .error ⟨position, a, 1, .unexpectedEnd⟩
      | b :: rest =>
        if isSecond a b then
          match rest with
          | [] => .error ⟨position, a, 2, .unexpectedEnd⟩
          | c :: rest =>
            if isContinuation c then
              decodeFrom (position + 3)
                (Char.ofNat (((n - 0xE0) * 0x40 + payload b) * 0x40 + payload c) :: out) rest
            else .error ⟨position, a, 2, .invalidContinuation⟩
        else .error ⟨position, a, 1, .invalidContinuation⟩
    else if n < 0xF5 then
      match rest with
      | [] => .error ⟨position, a, 1, .unexpectedEnd⟩
      | b :: rest =>
        if isSecond a b then
          match rest with
          | [] => .error ⟨position, a, 2, .unexpectedEnd⟩
          | c :: rest =>
            if isContinuation c then
              match rest with
              | [] => .error ⟨position, a, 3, .unexpectedEnd⟩
              | d :: rest =>
                if isContinuation d then
                  decodeFrom (position + 4)
                    (Char.ofNat ((((n - 0xF0) * 0x40 + payload b) * 0x40 + payload c) * 0x40 +
                      payload d) :: out) rest
                else .error ⟨position, a, 3, .invalidContinuation⟩
            else .error ⟨position, a, 2, .invalidContinuation⟩
        else .error ⟨position, a, 1, .invalidContinuation⟩
    else .error ⟨position, a, 1, .invalidStart⟩

/-- The characters of a list of bytes. -/
def decode (bytes : List UInt8) : Except Fault (List Char) :=
  decodeFrom 0 [] bytes

end NibbleAsm.Text.Utf8
