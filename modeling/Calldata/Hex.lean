import Calldata.Numeral
import Calldata.Text.Quoted
import Calldata.Text.Utf8

/-!
# Hexadecimal text

A byte string as two digits a byte. Written digits are lowercase, read ones may have either case,
and a marker `0x` in front is optional. Faults are placed by byte, not by character.
-/

namespace Calldata

/-- Why a text is not the hexadecimal form of a byte string. -/
inductive HexFault where
  | oddLength
  | badDigit (byte : UInt8) (position : Nat)
  deriving DecidableEq, Repr

namespace HexFault

/-- The wording of a fault; a bad byte is shown as the character with its number. -/
def message : HexFault → String
  | oddLength => "Odd number of digits"
  | badDigit b i =>
    "Invalid character " ++ Text.quotedChar (Char.ofNat b.toNat) ++ " at position " ++ decimal i

end HexFault

namespace Hex

/-- The value of a hexadecimal digit of either case. -/
def digit? (b : UInt8) : Option Nat :=
  let n := b.toNat
  if 48 ≤ n ∧ n ≤ 57 then some (n - 48)
  else if 97 ≤ n ∧ n ≤ 102 then some (n - 87)
  else if 65 ≤ n ∧ n ≤ 70 then some (n - 55)
  else none

/-- The value of the digit at `position`. -/
def digit (position : Nat) (b : UInt8) : Except HexFault Nat :=
  match digit? b with
  | some d => .ok d
  | none => .error (.badDigit b position)

/-- Reads digits in pairs, the first of them at `position`. -/
def pairs (position : Nat) : Bytes → Except HexFault Bytes
  | high :: low :: rest => do
    let h ← digit position high
    let l ← digit (position + 1) low
    let bs ← pairs (position + 2) rest
    pure (UInt8.ofNat (16 * h + l) :: bs)
  | _ => pure []

/-- Reads a byte string from its digits. An odd count is found before a bad digit. -/
def decode (digits : Bytes) : Except HexFault Bytes :=
  if digits.length % 2 = 1 then .error .oddLength else pairs 0 digits

/-- Drops one marker `0x`. -/
def unmarked : Bytes → Bytes
  | 0x30 :: 0x78 :: rest => rest
  | digits => digits

def markedDigits? : List Char → Option (List Char)
  | '0' :: 'x' :: rest => some rest
  | '0' :: 'X' :: rest => some rest
  | _ => none

/-- Reads a byte string from a text with an optional marker. -/
def ofText (s : String) : Except HexFault Bytes := decode (unmarked (Text.utf8 s))

def byteDigits (b : UInt8) : List Char :=
  [hexDigitChar (b.toNat / 16), hexDigitChar (b.toNat % 16)]

def encode (bs : Bytes) : String := String.ofList (bs.flatMap byteDigits)

/-- The digits of a byte string behind the marker. -/
def marked (bs : Bytes) : String := "0x" ++ encode bs

end Hex

end Calldata
