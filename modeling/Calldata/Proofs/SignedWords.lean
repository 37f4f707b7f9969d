import Calldata.Proofs.Integers

/-!
# Integers of one word

The words are in bijection with the integers that fit in 256 bits. Other integers of a sign and a
magnitude have words too, which they share with one that fits.
-/

namespace Calldata.Signed

variable {v : Signed} {bits : Nat}

theorem toInt_of (m : Word) (negative : Bool) :
    (of m negative).toInt = if negative then -(m.toNat : Int) else m.toNat := by
  unfold toInt
  rw [magnitude_of, negative_of]
  cases negative with
  | false => rfl
  | true =>
    by_cases hm : m = 0
    · simp [hm]
    · have hne : (m != 0) = true := bne_iff_ne.mpr hm
      rw [hne, Bool.and_self]

/-! ## Widths -/

theorem fits_min (v : Signed) (bits : Nat) : v.fits bits = v.fits (Nat.min bits 256) := by
  by_cases h : bits ≤ 256
  · have hmin : Nat.min bits 256 = bits := Nat.min_eq_left h
    rw [hmin]
  · have hmin : Nat.min bits 256 = 256 := Nat.min_eq_right (by omega)
    obtain ⟨b, rfl⟩ : ∃ b, bits = b + 1 := ⟨bits - 1, by omega⟩
    have hcap : Nat.min b 255 = 255 := Nat.min_eq_right (by omega)
    rw [hmin]
    simp only [fits, hcap, Nat.min_self]

theorem fits_iff_range : v.fits bits = true ↔ 1 ≤ bits ∧
    -(2 ^ (Nat.min bits 256 - 1) : Int) ≤ v.toInt ∧ v.toInt < 2 ^ (Nat.min bits 256 - 1) := by
  rw [fits_min]
  cases bits with
  | zero => simp [fits]
  | succ b =>
    have hpos : 1 ≤ Nat.min (b + 1) 256 := Nat.le_min.mpr ⟨by omega, by omega⟩
    rw [fits_iff hpos (Nat.min_le_right _ _)]
    simp

/-! ## Words -/

theorem toInt_bounds (w : Word) :
    -(2 ^ 255 : Int) ≤ (ofTwosComplement w).toInt ∧ (ofTwosComplement w).toInt < 2 ^ 255 := by
  rw [toInt_ofTwosComplement]
  exact ⟨BitVec.le_toInt w, BitVec.toInt_lt⟩

theorem toInt_emod (w : Word) : (ofTwosComplement w).toInt % 2 ^ 256 = w.toNat := by
  have hlt := w.isLt
  rw [toInt_ofTwosComplement, BitVec.toInt_eq_toNat_cond]
  split <;> omega

theorem toTwosComplement_ofTwosComplement (w : Word) : (ofTwosComplement w).toTwosComplement = w := by
  apply BitVec.eq_of_toNat_eq
  rw [toNat_toTwosComplement, toInt_emod, Int.toNat_natCast]

theorem ofTwosComplement_toTwosComplement_iff :
    ofTwosComplement v.toTwosComplement = v ↔ v.fits 256 = true := by
  constructor
  · intro h
    rw [← h, fits_iff (by decide) (by decide)]
    exact toInt_bounds _
  · exact ofTwosComplement_toTwosComplement

theorem toTwosComplement_eq (v : Signed) :
    v.toTwosComplement = if v.negative then ~~~v.magnitude + 1 else v.magnitude := by
  unfold toTwosComplement
  rw [BitVec.neg_eq_not_add]
  rfl

/-- Every word is read as an integer of 256 bits, which is the word modulo `2 ^ 256`, has no sign
when it is zero, and is written as the same word. Whatever integer a sign and a magnitude make, its word
is the integer modulo `2 ^ 256`; it fits in a width when it is in the range of that width, and comes back
from its word when it fits in one. Integers are equal when they denote the same one. -/
theorem twosComplement_bijective :
    (∀ w : Word, -(2 ^ 255 : Int) ≤ (ofTwosComplement w).toInt ∧ (ofTwosComplement w).toInt < 2 ^ 255 ∧
      (ofTwosComplement w).toInt % 2 ^ 256 = w.toNat ∧
      ((ofTwosComplement w).negative = true ↔ (ofTwosComplement w).toInt < 0) ∧
      (ofTwosComplement w).toTwosComplement = w) ∧
    (∀ (m : Word) (negative : Bool), (of m negative).toInt = if negative then -(m.toNat : Int) else m.toNat) ∧
    (∀ i : BitVec 128, (ofInt i.toInt).toInt = i.toInt) ∧
    (∀ v : Signed, v.toTwosComplement = (if v.negative then ~~~v.magnitude + 1 else v.magnitude) ∧
      v.toTwosComplement.toNat = v.toInt % 2 ^ 256 ∧
      (∀ bits, v.fits bits = true ↔ 1 ≤ bits ∧
        -(2 ^ (Nat.min bits 256 - 1) : Int) ≤ v.toInt ∧ v.toInt < 2 ^ (Nat.min bits 256 - 1)) ∧
      (ofTwosComplement v.toTwosComplement = v ↔ v.fits 256 = true)) ∧
    ∀ v w : Signed, v = w ↔ v.toInt = w.toInt := by
  refine ⟨fun w => ?_, toInt_of, fun i => ?_, fun v => ?_, fun v w => ⟨fun h => h ▸ rfl, toInt_inj⟩⟩
  · obtain ⟨hlow, hhigh⟩ := toInt_bounds w
    exact ⟨hlow, hhigh, toInt_emod w, toInt_neg_iff.symm, toTwosComplement_ofTwosComplement w⟩
  · have hlow : -(2 ^ 127 : Int) ≤ i.toInt := BitVec.le_toInt i
    have hhigh : i.toInt < 2 ^ 127 := BitVec.toInt_lt
    exact toInt_ofInt (by omega)
  · refine ⟨toTwosComplement_eq v, ?_, fun bits => fits_iff_range, ofTwosComplement_toTwosComplement_iff⟩
    rw [toNat_toTwosComplement, Int.toNat_of_nonneg (Int.emod_nonneg _ (by decide))]

end Calldata.Signed
