import Calldata.Json

/-!
# JSON numerals

The parts of a number as it is written, and the value it stands for. Digits count until they
fill a 64-bit number; further ones only move the point. The power of ten is then applied to the
rounded digits, so the value may be a neighbour of the nearest one.
-/

namespace Calldata.Json

structure Numeral where
  negative : Bool
  /-- The digits in front of the point. -/
  whole : List Char
  /-- The digits behind the point, none without a point. -/
  fraction : List Char
  exponent : Option Int

namespace Numeral

/-- Digits and the power of ten that they are counted in. -/
structure Significand where
  digits : Nat
  exponent : Int

/-- Adds digits as long as 64 bits hold them; each one that fits moves the exponent by `step`. -/
def fill (step : Int) (s : Significand) : List Char → Significand × List Char
  | [] => (s, [])
  | c :: cs =>
    let n := 10 * s.digits + (c.toNat - 48)
    if 1 <<< 64 ≤ n then (s, c :: cs) else fill step ⟨n, s.exponent + step⟩ cs

def significand (x : Numeral) : Significand :=
  let (s, dropped) := fill 0 ⟨0, 0⟩ x.whole
  let (s, _) := fill (-1) ⟨s.digits, s.exponent + dropped.length⟩ x.fraction
  ⟨s.digits, s.exponent + x.exponent.getD 0⟩

/-- The greatest power of ten that is applied in one step. -/
def maxStep : Nat := 308

/-- The magnitude of `s`. A power of ten below the least step is applied in two; none remains
after that. -/
def Significand.toDouble? (s : Significand) : Option Double := do
  let x ← Double.ofRatio s.digits 1
  if 0 ≤ s.exponent then
    if x.isZero then pure x
    else if maxStep < s.exponent.toNat then none
    else x.mul (Double.tenTo s.exponent.toNat)
  else
    let k := (-s.exponent).toNat
    if k ≤ maxStep then x.div (Double.tenTo k)
    else if k ≤ 2 * maxStep then do
      let y ← x.div (Double.tenTo maxStep)
      y.div (Double.tenTo (k - maxStep))
    else pure Double.zero

/-- The value of a numeral; none when it is too large. -/
def value? (x : Numeral) : Option Json :=
  let n := digitsValue x.whole
  let real := x.significand.toDouble?.map (Json.real x.negative)
  if x.fraction.isEmpty ∧ x.exponent.isNone then
    if x.negative then
      if 1 ≤ n ∧ n ≤ 1 <<< 63 then some (.integer (-n)) else real
    else if n < 1 <<< 64 then some (.integer n) else real
  else real

end Numeral

end Calldata.Json
