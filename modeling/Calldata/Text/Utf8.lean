import Calldata.Bytes

/-!
# UTF-8

The bytes of a text, and the text that a byte string spells. A byte string that is no text is
faulted at its first character that is none.
-/

namespace Calldata.Text

def utf8 (s : String) : Bytes := s.toByteArray.data.toList

structure Utf8Fault where
  /-- The number of bytes that are whole characters. -/
  validTo : Nat
  /-- The bytes behind them that can start no character; none when the data end too early. -/
  badBytes : Option Nat
  deriving DecidableEq, Repr

/-! ## Characters -/

/-- What may follow the first byte of a character of several bytes: the range of the second
byte, and how many continuation bytes stand behind it. -/
def tailOf (b : UInt8) : Option (UInt8 × UInt8 × Nat) :=
  if 0xC2 ≤ b ∧ b ≤ 0xDF then some (0x80, 0xBF, 0)
  else if b = 0xE0 then some (0xA0, 0xBF, 1)
  else if b = 0xED then some (0x80, 0x9F, 1)
  else if 0xE1 ≤ b ∧ b ≤ 0xEF then some (0x80, 0xBF, 1)
  else if b = 0xF0 then some (0x90, 0xBF, 2)
  else if 0xF1 ≤ b ∧ b ≤ 0xF3 then some (0x80, 0xBF, 2)
  else if b = 0xF4 then some (0x80, 0x8F, 2)
  else none

/-- Reads `k` continuation bytes behind `seen` bytes; the length of the character, or the number
of bytes that start none. -/
def continuation (seen : Nat) : Nat → Bytes → Except (Option Nat) Nat
  | 0, _ => .ok seen
  | _ + 1, [] => .error none
  | k + 1, b :: bs =>
    if 0x80 ≤ b ∧ b ≤ 0xBF then continuation (seen + 1) k bs else .error (some seen)

/-- The length of the first character of a byte string. -/
def firstLength (b : UInt8) (bs : Bytes) : Except (Option Nat) Nat :=
  if b < 0x80 then .ok 1 else
  match tailOf b, bs with
  | none, _ => .error (some 1)
  | some _, [] => .error none
  | some (low, high, k), c :: cs =>
    if low ≤ c ∧ c ≤ high then continuation 2 k cs else .error (some 1)

/-- Walks over the characters; `skip` bytes still belong to the last one. -/
def faultFrom (skip at_ : Nat) : Bytes → Option Utf8Fault
  | [] => none
  | b :: bs =>
    match skip with
    | skip + 1 => faultFrom skip (at_ + 1) bs
    | 0 =>
      match firstLength b bs with
      | .ok n => faultFrom (n - 1) (at_ + 1) bs
      | .error bad => some ⟨at_, bad⟩

/-! ## Texts -/

def ofUtf8 (bs : Bytes) : Except Utf8Fault String :=
  match String.fromUTF8? ⟨bs.toArray⟩ with
  | some s => .ok s
  | none => .error ((faultFrom 0 0 bs).getD ⟨0, none⟩)

theorem ofUtf8_utf8 (s : String) : ofUtf8 (utf8 s) = .ok s := by
  have h : (ByteArray.mk (utf8 s).toArray) = s.toByteArray := by simp [utf8]
  simp [ofUtf8, h, String.fromUTF8?, s.isValidUTF8, String.fromUTF8]

theorem utf8_of_ofUtf8 {bs : Bytes} {s : String} (h : ofUtf8 bs = .ok s) : utf8 s = bs := by
  unfold ofUtf8 String.fromUTF8? at h
  split at h
  · rename_i t ht
    split at ht <;> simp_all [utf8]
    subst h; subst ht; simp [String.fromUTF8]
  · simp at h

theorem utf8_injective {s s' : String} (h : utf8 s = utf8 s') : s = s' := by
  have hread := ofUtf8_utf8 s
  rw [h, ofUtf8_utf8] at hread
  exact (Except.ok.inj hread).symm

end Calldata.Text
