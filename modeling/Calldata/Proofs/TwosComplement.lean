import Calldata.Signed
import Mathlib.Algebra.Order.Ring.Nat
import Mathlib.Tactic.Common

/-!
# Integers as words

An integer fits in a width exactly when it lies in the range of that width, and one that fits in a
word survives two's complement.
-/

namespace Calldata.Signed

variable {v w : Signed} {bits : Nat}

theorem toInt_of_negative (h : v.negative = true) : v.toInt = -(v.magnitude.toNat : Int) := by
  rw [toInt, if_pos h]

theorem toInt_of_nonnegative (h : v.negative = false) : v.toInt = v.magnitude.toNat := by
  rw [toInt, if_neg (by simp [h])]

theorem magnitude_pos (h : v.negative = true) : 0 < v.magnitude.toNat := by
  have hne := v.magnitude_ne_zero h
  rcases Nat.eq_zero_or_pos v.magnitude.toNat with h0 | hpos
  · exact absurd (BitVec.eq_of_toNat_eq h0) hne
  · exact hpos

theorem fits_iff (h1 : 1 ≤ bits) (h256 : bits ≤ 256) :
    v.fits bits = true ↔ -(2 ^ (bits - 1) : Int) ≤ v.toInt ∧ v.toInt < 2 ^ (bits - 1) := by
  obtain ⟨b, rfl⟩ : ∃ b, bits = b + 1 := ⟨bits - 1, by omega⟩
  have hmin : Nat.min b 255 = b := Nat.min_eq_left (by omega)
  have hcast : (2 ^ b : Int) = ((2 ^ b : Nat) : Int) := by simp
  have hpos : 0 < 2 ^ b := Nat.two_pow_pos b
  simp only [fits, hmin, Nat.add_sub_cancel, hcast]
  cases hn : v.negative with
  | true =>
    rw [toInt_of_negative hn]
    simp only [if_true, decide_eq_true_eq]
    omega
  | false =>
    rw [toInt_of_nonnegative hn]
    simp only [Bool.false_eq_true, if_false, decide_eq_true_eq]
    omega

theorem fits_word (h : v.fits bits = true) : v.fits 256 = true := by
  cases bits with
  | zero => simp [fits] at h
  | succ b =>
    have hle : 2 ^ Nat.min b 255 ≤ 2 ^ 255 := Nat.pow_le_pow_right (by decide) (Nat.min_le_right b 255)
    simp only [fits, Nat.min_self, Nat.one_shiftLeft] at *
    cases hn : v.negative with
    | true =>
      simp only [hn, if_true, decide_eq_true_eq] at *
      omega
    | false =>
      simp only [hn, Bool.false_eq_true, if_false, decide_eq_true_eq] at *
      omega

theorem ofTwosComplement_toTwosComplement (h : v.fits 256 = true) :
    ofTwosComplement v.toTwosComplement = v := by
  simp only [fits] at h
  have hlt := v.magnitude.isLt
  cases hn : v.negative with
  | true =>
    have hpos := magnitude_pos hn
    have hle : v.magnitude.toNat ≤ 2 ^ 255 := by simpa [hn] using h
    have hmsb : (-v.magnitude).msb = true := by
      rw [BitVec.msb_eq_decide, BitVec.toNat_neg, Nat.mod_eq_of_lt (by omega)]
      simp only [decide_eq_true_eq]
      omega
    rw [toTwosComplement, if_pos hn, ofTwosComplement, if_pos hmsb, BitVec.neg_neg]
    conv_rhs => rw [← of_parts v, hn]
  | false =>
    have hle : v.magnitude.toNat < 2 ^ 255 := by simpa [hn] using h
    have hmsb : ¬ v.magnitude.msb = true := by
      rw [BitVec.msb_eq_decide]
      simp only [decide_eq_true_eq]
      omega
    rw [toTwosComplement, if_neg (by simp [hn]), ofTwosComplement, if_neg hmsb]
    conv_rhs => rw [← of_parts v, hn]

theorem toInt_ofTwosComplement (w : Word) : (ofTwosComplement w).toInt = w.toInt := by
  have hlt := w.isLt
  unfold ofTwosComplement
  rw [BitVec.toInt_eq_msb_cond]
  cases hm : w.msb with
  | true =>
    rw [BitVec.msb_eq_decide, decide_eq_true_eq] at hm
    have hneg : (-w).toNat = 2 ^ 256 - w.toNat := by
      rw [BitVec.toNat_neg, Nat.mod_eq_of_lt (by omega)]
    have hne : (-w != 0) = true := by
      rw [bne_iff_ne]
      intro h0
      rw [h0] at hneg
      simp only [BitVec.ofNat_eq_ofNat, BitVec.toNat_ofNat, Nat.zero_mod] at hneg
      omega
    have hnegative : (of (-w) true).negative = true := by rw [negative_of, hne, Bool.and_self]
    rw [if_pos rfl, if_pos rfl, toInt_of_negative hnegative, magnitude_of, hneg]
    omega
  | false => simp [toInt]

end Calldata.Signed
