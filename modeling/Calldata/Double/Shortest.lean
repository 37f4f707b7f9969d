import Calldata.Double
import Calldata.Numeral

/-!
# The shortest decimal

The decimal with the fewest digits that rounds to a number, and among those the nearest to it. A
decimal rounds to the number when it lies between the middles to the two neighbours; the middles
themselves count when the mantissa is even.
-/

namespace Calldata.Double

/-- The decimal `digits * 10 ^ exponent`. -/
structure Decimal where
  digits : Nat
  exponent : Int
  deriving DecidableEq, Repr, Inhabited

/-- The exponent of the greatest power of ten that is at most `n / d`. -/
def magnitude10 (n d : Nat) : Int :=
  if d ≤ n then ((decimalDigits (n / d)).length : Int) - 1
  else -((decimalDigits ((d + n - 1) / n - 1)).length : Int)

/-- Whether `c * 10 ^ k` rounds to `x`. -/
def roundsTo (x : Double) (c : Nat) (k : Int) : Bool :=
  let below := if x.mantissa = 1 <<< 52 ∧ minExponent < x.exponent then 1 else 2
  let e := x.exponent - 2
  let point := (c * Nat.pow 10 k.toNat) <<< (-e).toNat
  let unit := Nat.pow 10 (-k).toNat <<< e.toNat
  let low := (4 * x.mantissa - below) * unit
  let high := (4 * x.mantissa + 2) * unit
  if x.mantissa % 2 = 0 then low ≤ point && point ≤ high else low < point && point < high

/-- The multiple of `10 ^ k` nearest to `x` among those that round to it. -/
def onGrid (x : Double) (k : Int) : Option Decimal :=
  let (n, d) := x.ratio
  let n' := n * Nat.pow 10 (-k).toNat
  let d' := d * Nat.pow 10 k.toNat
  let c := nearest n' d'
  let other := if c * d' ≤ n' then c + 1 else c - 1
  if roundsTo x c k then some ⟨c, k⟩
  else if roundsTo x other k then some ⟨other, k⟩
  else none

/-- Tries one more digit until a decimal rounds to `x`. -/
def search (x : Double) (k : Int) : Nat → Decimal
  | 0 => ⟨nearest (x.ratio.1 * Nat.pow 10 (-k).toNat) (x.ratio.2 * Nat.pow 10 k.toNat), k⟩
  | more + 1 => (onGrid x k).getD (search x (k - 1) more)

/-- The shortest decimal that rounds to a positive number. -/
def shortest (x : Double) : Decimal :=
  search x (magnitude10 x.ratio.1 x.ratio.2) 17

/-! ## Text -/

def withoutTrailingZeros (ds : List Char) : List Char := (ds.reverse.dropWhile (· == '0')).reverse

/-- The point stands in front of, inside or behind the digits when it is close to them; otherwise
it follows the first digit, and an exponent with a sign follows the last. -/
def text (x : Double) : String :=
  if x.isZero then "0.0"
  else
    let decimalForm := shortest x
    let all := decimalDigits decimalForm.digits
    let ds := withoutTrailingZeros all
    let point : Int := all.length + decimalForm.exponent
    String.ofList <|
      if -5 < point ∧ point ≤ 0 then
        '0' :: '.' :: List.replicate (-point).toNat '0' ++ ds
      else if 0 < point ∧ point ≤ 16 then
        if ds.length ≤ point.toNat then
          ds ++ List.replicate (point.toNat - ds.length) '0' ++ ['.', '0']
        else ds.take point.toNat ++ '.' :: ds.drop point.toNat
      else
        let fraction := if ds.length ≤ 1 then [] else '.' :: ds.drop 1
        let sign := if point ≤ 0 then '-' else '+'
        ds.take 1 ++ fraction ++ 'e' :: sign :: decimalDigits (point - 1).natAbs

end Calldata.Double
