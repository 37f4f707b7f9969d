/-!
# Binary64 magnitudes

Non-negative numbers of 53 significant bits, as a mantissa times a power of two. A quotient of
naturals is rounded to the nearest of them, a tie to the even mantissa.
-/

namespace Calldata

/-- The number `mantissa * 2 ^ exponent`. -/
structure Double where
  mantissa : Nat
  exponent : Int
  deriving DecidableEq, Repr, Inhabited

namespace Double

/-- The exponent of the smallest numbers. -/
def minExponent : Int := -1074

/-- The exponent of the largest numbers. -/
def maxExponent : Int := 971

def zero : Double := ⟨0, minExponent⟩

def isZero (x : Double) : Bool := x.mantissa == 0

/-! ## Rounding -/

/-- The natural nearest to `n / d`, a tie to the even one. -/
def nearest (n d : Nat) : Nat :=
  let q := n / d
  let r := n % d
  if 2 * r > d ∨ (2 * r = d ∧ q % 2 = 1) then q + 1 else q

theorem nearest_close (n : Nat) {d : Nat} (hd : 0 < d) :
    2 * (nearest n d * d) ≤ 2 * n + d ∧ 2 * n ≤ 2 * (nearest n d * d) + d := by
  have hdiv : n / d * d + n % d = n := Nat.div_add_mod' n d
  have hlt : n % d < d := Nat.mod_lt n hd
  have hnext : (n / d + 1) * d = n / d * d + d := Nat.succ_mul _ _
  simp only [nearest]
  split <;> omega

theorem nearest_even_of_tie {n d : Nat} (h : 2 * (n % d) = d) : nearest n d % 2 = 0 := by
  simp only [nearest]
  split <;> omega

example : nearest 5 2 = 2 ∧ nearest 7 2 = 4 := by decide

/-- Numerator and denominator of `n / (d * 2 ^ e)`. -/
def scaled (n d : Nat) (e : Int) : Nat × Nat := (n <<< (-e).toNat, d <<< e.toNat)

/-- The exponent at which `n / d` has 53 bits, but not below the least one. -/
def exponentOf (n d : Nat) : Int :=
  let e : Int := (Nat.log2 n : Int) - Nat.log2 d - 53
  let (n', d') := scaled n d e
  max (if d' <<< 53 ≤ n' then e + 1 else e) minExponent

/-- The number nearest to `n / d`; none when it is too large. -/
def ofRatio (n d : Nat) : Option Double :=
  if n = 0 then some zero
  else
    let e := exponentOf n d
    let (n', d') := scaled n d e
    let m := nearest n' d'
    let x : Double := if m = 1 <<< 53 then ⟨1 <<< 52, e + 1⟩ else ⟨m, e⟩
    if maxExponent < x.exponent then none else some x

/-- The number nearest to `n * 10 ^ e`; none when it is too large. As `8 < 10`, the binary digits of
`n` and three times `e` tell a value that is far out of range, and no power is computed for it. -/
def ofDecimal (n : Nat) (e : Int) : Option Double :=
  let size : Int := Nat.log2 n + 3 * e
  if n = 0 ∨ size + 1 < minExponent then some zero
  else if 0 ≤ e ∧ 1024 ≤ size then none
  else ofRatio (n * Nat.pow 10 e.toNat) (Nat.pow 10 (-e).toNat)

def ratio (x : Double) : Nat × Nat := scaled x.mantissa 1 (-x.exponent)

/-! ## Arithmetic -/

def mul (x y : Double) : Option Double :=
  ofRatio (x.ratio.1 * y.ratio.1) (x.ratio.2 * y.ratio.2)

def div (x y : Double) : Option Double :=
  ofRatio (x.ratio.1 * y.ratio.2) (x.ratio.2 * y.ratio.1)

def tenTo (k : Nat) : Double := (ofRatio (Nat.pow 10 k) 1).getD zero

end Double

end Calldata
