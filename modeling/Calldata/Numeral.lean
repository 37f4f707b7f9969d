/-!
# Numerals

Writing a number in digits, and reading a run of them. A numeral may have leading zeros; the
written one has none.
-/

namespace Calldata

/-! ## Decimal -/

def digitChar (d : Nat) : Char := Char.ofNat (48 + d)

def decimalDigits (n : Nat) : List Char :=
  if n < 10 then [digitChar n] else decimalDigits (n / 10) ++ [digitChar (n % 10)]

def decimal (n : Nat) : String := String.ofList (decimalDigits n)

def isDigit (c : Char) : Bool := '0' ≤ c && c ≤ '9'

def digitsValue (cs : List Char) : Nat := cs.foldl (fun n c => 10 * n + (c.toNat - 48)) 0

def numeral? (cs : List Char) : Option Nat :=
  if cs ≠ [] ∧ cs.all isDigit then some (digitsValue cs) else none

theorem digitsValue_append_singleton (cs : List Char) (c : Char) :
    digitsValue (cs ++ [c]) = 10 * digitsValue cs + (c.toNat - 48) := by
  simp [digitsValue]

theorem toNat_digitChar {d : Nat} (h : d < 10) : (digitChar d).toNat = 48 + d := by
  have : ∀ d < 10, (digitChar d).toNat = 48 + d := by decide
  exact this d h

theorem isDigit_digitChar {d : Nat} (h : d < 10) : isDigit (digitChar d) = true := by
  have : ∀ d < 10, isDigit (digitChar d) = true := by decide
  exact this d h

theorem decimalDigits_ne_nil (n : Nat) : decimalDigits n ≠ [] := by
  rw [decimalDigits]; split <;> simp

theorem all_isDigit_decimalDigits (n : Nat) : (decimalDigits n).all isDigit = true := by
  induction n using Nat.strongRecOn with
  | _ n ih =>
    rw [decimalDigits]
    split
    · rename_i h; simp [isDigit_digitChar h]
    · rename_i h
      simp [ih (n / 10) (by omega), isDigit_digitChar (Nat.mod_lt n (by omega : 10 > 0)),
        List.all_append]

theorem digitsValue_decimalDigits (n : Nat) : digitsValue (decimalDigits n) = n := by
  induction n using Nat.strongRecOn with
  | _ n ih =>
    rw [decimalDigits]
    split
    · rename_i h; simp [digitsValue, toNat_digitChar h]
    · rename_i h
      rw [digitsValue_append_singleton, ih (n / 10) (by omega),
        toNat_digitChar (Nat.mod_lt n (by omega : 10 > 0))]
      omega

theorem numeral?_decimalDigits (n : Nat) : numeral? (decimalDigits n) = some n := by
  simp only [numeral?, decimalDigits_ne_nil, all_isDigit_decimalDigits,
    digitsValue_decimalDigits, ne_eq, not_false_eq_true, and_self, if_true]

/-! ## Hexadecimal -/

/-- The lowercase hexadecimal digit of a number below sixteen. -/
def hexDigitChar (d : Nat) : Char := if d < 10 then digitChar d else Char.ofNat (87 + d)

/-- The value of a hexadecimal digit of either case. -/
def hexDigitValue? (c : Char) : Option Nat :=
  if '0' ≤ c ∧ c ≤ '9' then some (c.toNat - 48)
  else if 'a' ≤ c ∧ c ≤ 'f' then some (c.toNat - 87)
  else if 'A' ≤ c ∧ c ≤ 'F' then some (c.toNat - 55)
  else none

/-- The lowercase hexadecimal digits of a number, most significant first. -/
def hexDigits (n : Nat) : List Char :=
  if n < 16 then [hexDigitChar n] else hexDigits (n / 16) ++ [hexDigitChar (n % 16)]

end Calldata
