import Calldata.Double
import Calldata.Numeral
import Calldata.Text.Split

/-!
# Numbers and moments in settings files

Which words are numbers and which are moments. Digits may be grouped by single underscores, and
a decimal number has no superfluous zero in front. An integer fits in 64 bits with its sign, and a
number with a point or an exponent is not too large for binary64 unless it has a minus. A moment is
a day, a time of day, or both with an optional distance from universal time.
-/

namespace Calldata.Toml

def unsigned : List Char → List Char
  | '+' :: cs => cs
  | '-' :: cs => cs
  | cs => cs

/-! ## Numbers -/

/-- Digits with no underscore at an end and no two in a row. -/
def isGrouped (isDigit : Char → Bool) (cs : List Char) : Bool :=
  (Text.split '_' cs).all fun group => !group.isEmpty && group.all isDigit

def isWhole (cs : List Char) : Bool :=
  isGrouped isDigit cs && (cs.head? ≠ some '0' || cs.length = 1)

/-- The number that grouped digits spell in a base. -/
def groupedValue (base : Nat) (cs : List Char) : Nat :=
  (cs.filterMap hexDigitValue?).foldl (fun n d => base * n + d) 0

/-- The number of magnitudes that an integer without a minus may have. -/
def integerLimit : Nat := 1 <<< 63

/-- A digit in a base of up to sixteen. -/
def isDigitOf (base : Nat) (c : Char) : Bool :=
  match hexDigitValue? c with
  | some d => d < base
  | none => false

/-- Digits in a base that is a power of two. -/
def isBased (base : Nat) (cs : List Char) : Bool :=
  isGrouped (isDigitOf base) cs && groupedValue base cs < integerLimit

def isInteger (cs : List Char) : Bool :=
  match cs with
  | '0' :: 'x' :: digits => isBased 16 digits
  | '0' :: 'o' :: digits => isBased 8 digits
  | '0' :: 'b' :: digits => isBased 2 digits
  | _ =>
    let n := groupedValue 10 (unsigned cs)
    isWhole (unsigned cs) && (n < integerLimit || (cs.head? = some '-' && n = integerLimit))

/-- The integer that grouped digits with a sign spell. -/
def signedValue (cs : List Char) : Int :=
  let n : Int := groupedValue 10 (unsigned cs)
  if cs.head? = some '-' then -n else n

/-- Whether a mantissa and the text of its exponent make a number that binary64 holds. -/
def isHeld (mantissa exponent : List Char) : Bool :=
  let places := ((mantissa.dropWhile (· ≠ '.')).filter isDigit).length
  (Double.ofDecimal (groupedValue 10 mantissa) (signedValue exponent - places)).isSome

/-- A number with a fraction, an exponent or both, or one that is infinite by its name. -/
def isReal (cs : List Char) : Bool :=
  let magnitude := unsigned cs
  let (mantissa, exponent) := magnitude.span fun c => c ≠ 'e' && c ≠ 'E'
  let (whole, fraction) := mantissa.span (· ≠ '.')
  magnitude = "inf".toList || magnitude = "nan".toList
    || (isWhole whole
      && (fraction.isEmpty || isGrouped isDigit fraction.tail)
      && (exponent.isEmpty || isGrouped isDigit (unsigned exponent.tail))
      && !(fraction.isEmpty && exponent.isEmpty)
      && (cs.head? = some '-' || isHeld mantissa exponent.tail))

def isNumber (cs : List Char) : Bool := isInteger cs || isReal cs

/-! ## Moments -/

def isLeapYear (year : Nat) : Bool := year % 4 = 0 && (year % 100 ≠ 0 || year % 400 = 0)

/-- The number of days of a month; there are none outside a year. -/
def daysIn (year month : Nat) : Nat :=
  match month with
  | 1 | 3 | 5 | 7 | 8 | 10 | 12 => 31
  | 4 | 6 | 9 | 11 => 30
  | 2 => if isLeapYear year then 29 else 28
  | _ => 0

def date? : List Char → Option (List Char)
  | y₁ :: y₂ :: y₃ :: y₄ :: '-' :: m₁ :: m₂ :: '-' :: d₁ :: d₂ :: rest => do
    let year ← numeral? [y₁, y₂, y₃, y₄]
    let month ← numeral? [m₁, m₂]
    let day ← numeral? [d₁, d₂]
    if 1 ≤ day ∧ day ≤ daysIn year month then some rest else none
  | _ => none

def secondFraction? : List Char → Option (List Char)
  | '.' :: c :: rest => if isDigit c then some (rest.dropWhile isDigit) else none
  | '.' :: [] => none
  | rest => some rest

/-- What follows a time of day. The last second of a day may be a leap second. -/
def time? : List Char → Option (List Char)
  | h₁ :: h₂ :: ':' :: m₁ :: m₂ :: ':' :: s₁ :: s₂ :: rest => do
    let hour ← numeral? [h₁, h₂]
    let minute ← numeral? [m₁, m₂]
    let second ← numeral? [s₁, s₂]
    if hour ≤ 23 ∧ minute ≤ 59 ∧ second ≤ 60 then secondFraction? rest else none
  | _ => none

/-- Whether a text is nothing or a distance from universal time. -/
def isOffset : List Char → Bool
  | [] => true
  | ['Z'] => true
  | ['z'] => true
  | [sign, h₁, h₂, ':', m₁, m₂] =>
    (sign = '+' || sign = '-')
      && match numeral? [h₁, h₂], numeral? [m₁, m₂] with
        | some hour, some minute => hour ≤ 23 && minute ≤ 59
        | _, _ => false
  | _ => false

def isDate (cs : List Char) : Bool := date? cs = some []

def isMoment (cs : List Char) : Bool :=
  match date? cs with
  | some [] => true
  | some (separator :: rest) =>
    (separator = 'T' || separator = 't' || separator = ' ')
      && match time? rest with
        | some offset => isOffset offset
        | none => false
  | none => time? cs = some []

end Calldata.Toml
