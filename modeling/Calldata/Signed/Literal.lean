import Calldata.Fault
import Calldata.Text.Blank

/-!
# Integer literals

A literal is an optional minus and digits, with blanks around them. The digits are hexadecimal
behind a marker `0x` or `0X`, and also without one when a lowercase letter from `a` to `f` is
among them; otherwise they are decimal.
-/

namespace Calldata.Signed

/-- The most hexadecimal digits of a word. -/
def maxHexDigits : Nat := 64

/-- The magnitude of hexadecimal digits. One more marker in front of them is dropped, and an odd
count is filled up with a zero. -/
def hexMagnitude (cs : List Char) : Except LiteralFault Nat :=
  let digits := Hex.unmarked (Text.utf8 (String.ofList cs))
  if maxHexDigits < digits.length then .error .tooManyDigits
  else
    match Hex.decode (if digits.length % 2 = 1 then 0x30 :: digits else digits) with
    | .ok bs => .ok (ofBigEndian bs)
    | .error cause => .error (.badHex cause)

def decimalMagnitude (cs : List Char) : Except LiteralFault Nat :=
  match numeral? cs with
  | none => .error .notNumber
  | some n => if n < 1 <<< 256 then .ok n else .error .tooLarge

def isHexLetter (c : Char) : Bool := 'a' ≤ c && c ≤ 'f'

def magnitudeOf (cs : List Char) : Except LiteralFault Nat :=
  match Hex.markedDigits? cs with
  | some [] => .error .emptyHex
  | some hex => hexMagnitude hex
  | none => if cs.any isHexLetter then hexMagnitude cs else decimalMagnitude cs

/-- The sign of a literal, and the text behind it. -/
def splitSign : List Char → Bool × List Char
  | '-' :: rest => (true, rest)
  | cs => (false, cs)

def ofLiteral (literal : String) : Except Fault Signed :=
  let (negative, cs) := splitSign (Text.trim literal.toList)
  match magnitudeOf cs with
  | .ok n => .ok (of (BitVec.ofNat 256 n) negative)
  | .error cause => .error (.badValue (.badInteger literal cause))

end Calldata.Signed
