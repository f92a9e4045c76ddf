import NibbleAsm.Diagnostic

/-!
# Machine images

An image is the words of a program, each as two bytes with the more significant first,
and nothing else.

## Main definitions

* `Image.pack`: the bytes of words
* `Image.unpack`: the words of bytes
-/

namespace NibbleAsm.Image

/-- The two bytes of a word, in front of other bytes. -/
def packWordOnto (word : Int) (bytes : List UInt8) : List UInt8 :=
  UInt8.ofNat (word.toNat / 0x100) :: UInt8.ofNat (word.toNat % 0x100) :: bytes

/-- The bytes of words, which all have to fit in sixteen bits. -/
def pack (words : List Int) : Except Failure (List UInt8) :=
  if words.all fun w => 0 ≤ w ∧ w < 0x10000 then .ok (words.foldr packWordOnto [])
  else .error (.fault .wordOutOfRange)

/-- The words of pairs of bytes, after the words `out`, which are in reverse order. -/
def unpackOnto (out : List Int) : List UInt8 → Option (List Int)
  | [] => some out.reverse
  | [_] => none
  | high :: low :: rest => unpackOnto ((high.toNat * 0x100 + low.toNat : Nat) :: out) rest

/-- The words of an image, which has to hold a whole number of them. -/
def unpack (name : String) (bytes : List UInt8) : Except Failure (List Int) :=
  match unpackOnto [] bytes with
  | some words => .ok words
  | none => fail (.brokenImage name bytes.length)

end NibbleAsm.Image
