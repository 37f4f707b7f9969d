import Calldata.Bytes
import Calldata.Numeral

/-!
# Signed integers

A sign and a magnitude of one word, so that a range wider than two's complement can be named
before a width is checked. Zero is never negative: equal integers are equal values.
-/

namespace Calldata

structure Signed where
  magnitude : Word
  negative : Bool
  magnitude_ne_zero : negative = true → magnitude ≠ 0
  deriving DecidableEq

namespace Signed

/-- The integer with this magnitude and sign; a negative zero is zero. -/
def of (magnitude : Word) (negative : Bool) : Signed where
  magnitude := magnitude
  negative := negative && magnitude != 0
  magnitude_ne_zero h := by simp at h; exact h.2

def toInt (v : Signed) : Int :=
  if v.negative then -(v.magnitude.toNat : Int) else v.magnitude.toNat

/-- The signed integer of an integer whose magnitude fits. -/
def ofInt (i : Int) : Signed := of (BitVec.ofNat 256 i.natAbs) (decide (i < 0))

def zero : Signed := of 0 false

instance : Inhabited Signed := ⟨zero⟩

def min : Signed := of (1 <<< 255) true

def max : Signed := of ((1 <<< 255) - 1) false

def ofTwosComplement (w : Word) : Signed := if w.msb then of (-w) true else of w false

/-- The word in two's complement; an integer that does not fit wraps around. -/
def toTwosComplement (v : Signed) : Word := if v.negative then -v.magnitude else v.magnitude

/-- Whether `bits` bits of two's complement hold the integer. There are no more than 256. -/
def fits (v : Signed) (bits : Nat) : Bool :=
  match bits with
  | 0 => false
  | bits + 1 =>
    let limit := 1 <<< Nat.min bits 255
    if v.negative then v.magnitude.toNat ≤ limit else v.magnitude.toNat < limit

/-- The decimal numeral, with a minus in front of a negative one. -/
def text (v : Signed) : String :=
  if v.negative then "-" ++ decimal v.magnitude.toNat else decimal v.magnitude.toNat

@[simp] theorem magnitude_of (m : Word) (n : Bool) : (of m n).magnitude = m := rfl

@[simp] theorem negative_of (m : Word) (n : Bool) : (of m n).negative = (n && m != 0) := rfl

@[simp] theorem of_parts (v : Signed) : of v.magnitude v.negative = v := by
  rcases v with ⟨m, n, h⟩
  cases n
  · simp [of]
  · have := h rfl
    simp_all [of]

end Signed

end Calldata
