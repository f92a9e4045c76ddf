import NibbleAsm.Diagnostic

/-!
# Field widths

Every value goes into a field of a certain number of bits and has to fit: registers and
small immediates into a nibble, the byte of a byte load into a byte, all else into a word.

## Main definitions

* `Width`: the number of bits of a field
* `Width.nibble`, `Width.byte`, `Width.word`: the widths of the machine
* `Width.fits`: whether a number fits
* `Width.check`: a value that fits

## Main results

* `Width.fits_iff`: the numbers that fit are those below the limit
-/

namespace NibbleAsm

/-- The number of bits of a field. -/
structure Width where
  bits : Int
  deriving DecidableEq, Repr

namespace Width

/-- The width of a register number. -/
def nibble : Width := ⟨4⟩

/-- The width of half a word. -/
def byte : Width := ⟨8⟩

/-- The width of a word. -/
def word : Width := ⟨16⟩

/-- Whether the machine has fields of a width. -/
def isSupported (w : Width) : Bool :=
  [4, 8, 16].contains w.bits

/-- The least value that does not fit. -/
def limit (w : Width) : Int :=
  (2 : Int).pow w.bits.toNat

/-- Whether a number fits: none of its bits is beyond the field. -/
def fits (w : Width) (value : Nat) : Bool :=
  value >>> w.bits.toNat == 0

theorem fits_iff {w : Width} {value : Nat} : w.fits value = true ↔ (value : Int) < w.limit := by
  rw [fits, limit, beq_iff_eq, Nat.shiftRight_eq_div_pow,
    Nat.div_eq_zero_iff_lt (Nat.two_pow_pos _), ← Int.ofNat_lt, Int.natCast_pow]
  rfl

/-- The greatest width whose limit can be written down: numbers are written in digits of thirty
bits, and a number has at most `2 ^ 61 - 7` digits. -/
def greatest : Int := 30 * ((2 : Int).pow 61 - 8)

/-- The width from which on limits do not fit into memory, at four bytes a digit. -/
def memoryBound : Int := 30 * (2 : Int).pow 34

/-- A value, if it fits; `shown` is how it was written. One that does not fit is reported with the
limit, unless that is too long to be written. -/
def check (w : Width) (value : Int) (shown : String) : Except Failure Int :=
  if value < 0 then fail (.negative shown)
  else if w.bits < 0 then .error (.fault .negativeWidth)
  else if w.bits > greatest then .error (.fault .widthTooLarge)
  else if w.bits ≥ memoryBound then .error (.fault .outOfMemory)
  else if w.fits value.toNat then .ok value
  else if isOverlong w.limit then .error (.fault .numberTooLong)
  else fail (.tooLarge shown w.limit)

end Width

end NibbleAsm
