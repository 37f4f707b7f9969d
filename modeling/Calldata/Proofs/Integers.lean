import Calldata.Proofs.Budget
import Calldata.Proofs.Words
import Calldata.Value.Json

/-!
# Integers are encoded by what they are

Numbers, unsigned numbers and literals all stand for integers. The encoding of an integer depends on
nothing but the integer and the width: either it is in the range of the width, and its word is the
integer modulo `2 ^ 256`, or it is refused.
-/

namespace Calldata

variable {t : ParamType} {v : Value} {z : Int} {e : Bytes} {bits k j n : Nat}

/-! ## Integers and words -/

/-- The word of an integer in two's complement, most significant byte first. -/
def integerWord (z : Int) : Bytes := bigEndian wordSize (z % 2 ^ 256).toNat

namespace Signed

variable {i : Signed}

theorem natAbs_toInt (i : Signed) : i.toInt.natAbs = i.magnitude.toNat := by
  unfold toInt
  split <;> simp

theorem toInt_neg_iff : i.toInt < 0 ↔ i.negative = true := by
  cases hn : i.negative with
  | true =>
    have hpos := magnitude_pos hn
    rw [toInt_of_negative hn]
    simp only [iff_true]
    omega
  | false =>
    rw [toInt_of_nonnegative hn]
    simp only [Bool.false_eq_true, iff_false]
    omega

@[simp] theorem ofInt_toInt (i : Signed) : ofInt i.toInt = i := by
  have hneg : decide (i.toInt < 0) = i.negative := by rw [Bool.eq_iff_iff, decide_eq_true_iff, toInt_neg_iff]
  rw [ofInt, natAbs_toInt, hneg, BitVec.ofNat_toNat, BitVec.setWidth_eq, of_parts]

theorem toInt_inj {v w : Signed} (h : v.toInt = w.toInt) : v = w := by
  rw [← ofInt_toInt v, h, ofInt_toInt]

theorem toTwosComplement_of_nonnegative (h : i.negative = false) : i.toTwosComplement = i.magnitude := by
  rw [toTwosComplement, if_neg (by simp [h])]

theorem toNat_toTwosComplement (i : Signed) : i.toTwosComplement.toNat = (i.toInt % 2 ^ 256).toNat := by
  have hlt := i.magnitude.isLt
  cases hn : i.negative with
  | true =>
    have hpos := magnitude_pos hn
    rw [toTwosComplement, if_pos hn, toInt_of_negative hn, BitVec.toNat_neg]
    omega
  | false =>
    rw [toTwosComplement_of_nonnegative hn, toInt_of_nonnegative hn]
    omega

theorem wordBytes_toTwosComplement (i : Signed) : wordBytes i.toTwosComplement = integerWord i.toInt := by
  rw [wordBytes, toNat_toTwosComplement, integerWord]

theorem toInt_ofInt (h : z.natAbs < 2 ^ 256) : (ofInt z).toInt = z := by
  have hmagnitude : (BitVec.ofNat 256 z.natAbs).toNat = z.natAbs := by rw [BitVec.toNat_ofNat, Nat.mod_eq_of_lt h]
  unfold ofInt toInt
  rw [negative_of, magnitude_of, hmagnitude]
  by_cases hz : z < 0
  · have hne : (BitVec.ofNat 256 z.natAbs != 0) = true := by
      rw [bne_iff_ne, ← BitVec.toNat_ne_iff_ne, hmagnitude]
      change z.natAbs ≠ 0
      omega
    rw [hne, decide_eq_true hz, Bool.and_self, if_pos rfl]
    omega
  · rw [decide_eq_false hz, Bool.false_and, if_neg (by simp)]
    omega

@[simp] theorem toInt_unsigned (w : Word) : (of w false).toInt = w.toNat := rfl

end Signed

/-! ## What values denote -/

/-- The integer that a value stands for. A literal stands for the one that it spells. -/
inductive Denotes : Value → Int → Prop where
  | int (i : Signed) : Denotes (.int i) i.toInt
  | uint (w : Word) : Denotes (.uint w) w.toNat
  | literal {s : String} {i : Signed} (read : Signed.ofLiteral s = .ok i) : Denotes (.string s) i.toInt

theorem Denotes.integerOf (h : Denotes v z) :
    Scalar.integerOf t v = .ok (Signed.ofInt z) ∧ (Signed.ofInt z).toInt = z := by
  cases h with
  | int i =>
    rw [Signed.ofInt_toInt]
    exact ⟨rfl, rfl⟩
  | uint w =>
    rw [← Signed.toInt_unsigned, Signed.ofInt_toInt]
    exact ⟨rfl, rfl⟩
  | @literal s i read =>
    rw [Signed.ofInt_toInt]
    exact ⟨read, rfl⟩

theorem denotes_of_json (ht : t = .int bits ∨ t = .uint bits) (hlow : -2 ^ 63 ≤ z) (hhigh : z < 2 ^ 64) :
    ∃ v, Value.ofJson t (.integer z) = .ok v ∧ Denotes v z := by
  have hscalar : Value.ofJson t (.integer z) = Value.ofScalar t (.integer z) := by
    rcases ht with rfl | rfl <;> rfl
  rw [hscalar, Value.ofScalar]
  split
  · have hint : (Signed.ofInt z).toInt = z := Signed.toInt_ofInt (by omega)
    refine ⟨.int (Signed.ofInt z), rfl, ?_⟩
    rw [← hint, Signed.ofInt_toInt]
    exact .int _
  · have hword : ((BitVec.ofNat 256 z.natAbs).toNat : Int) = z := by
      rw [BitVec.toNat_ofNat]
      omega
    refine ⟨.uint (BitVec.ofNat 256 z.natAbs), rfl, ?_⟩
    have hdenotes := Denotes.uint (BitVec.ofNat 256 z.natAbs)
    rwa [hword] at hdenotes

/-! ## Ranges -/

/-- The range of `intN`. -/
def InIntRange (bits : Nat) (z : Int) : Prop := -2 ^ (bits - 1) ≤ z ∧ z < 2 ^ (bits - 1)

instance : Decidable (InIntRange bits z) := by unfold InIntRange; infer_instance

/-- The range of `uintN`. -/
def InUintRange (bits : Nat) (z : Int) : Prop := 0 ≤ z ∧ z < 2 ^ bits

instance : Decidable (InUintRange bits z) := by unfold InUintRange; infer_instance

theorem InIntRange.mono {wider : Nat} (h : InIntRange bits z) (hle : bits ≤ wider) : InIntRange wider z := by
  have hpow : (2 : Int) ^ (bits - 1) ≤ 2 ^ (wider - 1) := by exact_mod_cast Nat.pow_le_pow_right (by decide) (by omega)
  unfold InIntRange at *
  omega

theorem InUintRange.mono {wider : Nat} (h : InUintRange bits z) (hle : bits ≤ wider) : InUintRange wider z := by
  have hpow : (2 : Int) ^ bits ≤ 2 ^ wider := by exact_mod_cast Nat.pow_le_pow_right (by decide) hle
  unfold InUintRange at *
  omega

namespace Scalar

theorem encodeInt_of_denotes (hw : ParamType.IsWidth bits) (h : Denotes v z) :
    encodeInt bits v =
      if InIntRange bits z then .ok (integerWord z) else .error (.outOfRange (.int bits) (Signed.ofInt z)) := by
  obtain ⟨hi, hz⟩ := h.integerOf (t := .int bits)
  obtain ⟨h8, h256, -⟩ := id hw
  have hfits : (Signed.ofInt z).fits bits = true ↔ InIntRange bits z := by
    rw [Signed.fits_iff (by omega) h256, hz, InIntRange]
  unfold encodeInt
  rw [if_neg (not_not.mpr hw)]
  simp only [hi, hfits, Signed.wordBytes_toTwosComplement, hz]

theorem encodeUint_of_denotes (hw : ParamType.IsWidth bits) (h : Denotes v z) :
    encodeUint bits v =
      if z < 0 then .error .negative
      else if z < 2 ^ bits then .ok (bigEndian wordSize z.toNat)
      else .error (.outOfRange (.uint bits) (Signed.ofInt z)) := by
  obtain ⟨hi, hz⟩ := h.integerOf (t := .uint bits)
  have hneg : (Signed.ofInt z).negative = true ↔ z < 0 := by rw [← Signed.toInt_neg_iff, hz]
  unfold encodeUint
  rw [if_neg (not_not.mpr hw)]
  simp only [hi, hneg]
  split
  · rfl
  · rename_i hsign
    have hmagnitude : (Signed.ofInt z).magnitude.toNat = z.toNat := by
      rw [← Signed.natAbs_toInt, hz]
      omega
    have hlt : z.toNat < 1 <<< bits ↔ z < 2 ^ bits := by
      rw [Nat.one_shiftLeft, Int.toNat_lt (by omega)]
      push_cast
      rfl
    simp only [hmagnitude, hlt, wordBytes]

end Scalar

/-! ## Words -/

theorem bigEndian_add (k j n : Nat) : bigEndian (k + j) n = bigEndian k (n / 256 ^ j) ++ bigEndian j n := by
  induction j generalizing n with
  | zero => simp [bigEndian]
  | succ j ih =>
    rw [← Nat.add_assoc, bigEndian, ih, bigEndian, List.append_assoc, Nat.pow_succ', Nat.div_div_eq_div_mul]

theorem bigEndian_zero (k : Nat) : bigEndian k 0 = List.replicate k 0 := by
  induction k with
  | zero => rfl
  | succ k ih => rw [bigEndian, Nat.zero_div, ih, List.replicate_succ']; rfl

theorem bigEndian_ones (k : Nat) : bigEndian k (256 ^ k - 1) = List.replicate k 0xff := by
  induction k with
  | zero => rfl
  | succ k ih =>
    have hpos : 0 < 256 ^ k := Nat.pow_pos (by decide)
    have hfront : (256 ^ (k + 1) - 1) / 256 = 256 ^ k - 1 := by omega
    have hlast : UInt8.ofNat (256 ^ (k + 1) - 1) = 0xff := by
      apply UInt8.toNat_inj.mp
      rw [UInt8.toNat_ofNat']
      change _ = 255
      omega
    rw [bigEndian, hfront, ih, hlast, List.replicate_succ']

theorem take_integerWord (hw : ParamType.IsWidth bits) (h : InIntRange bits z) :
    (integerWord z).take (wordSize - bits / 8) = List.replicate (wordSize - bits / 8) (if z < 0 then 0xff else 0) := by
  obtain ⟨j, rfl⟩ : ∃ j, bits = 8 * j := ⟨bits / 8, by have := hw.2.2; omega⟩
  obtain ⟨h8, h256, -⟩ := hw
  obtain ⟨k, hk⟩ : ∃ k, wordSize = k + j := ⟨32 - j, by simp only [wordSize]; omega⟩
  rw [Nat.mul_div_cancel_left j (by decide), integerWord, hk, Nat.add_sub_cancel, bigEndian_add,
    List.take_left' (length_bigEndian k _)]
  have hword : 256 ^ k * 256 ^ j = 2 ^ 256 := by rw [← Nat.pow_add, ← hk]; rfl
  have hhalf : 2 ^ (8 * j - 1) ≤ 256 ^ j := by
    rw [show 256 = 2 ^ 8 by rfl, ← Nat.pow_mul]
    exact Nat.pow_le_pow_right (by decide) (Nat.sub_le _ _)
  obtain ⟨hlow, hhigh⟩ : -((2 ^ (8 * j - 1) : Nat) : Int) ≤ z ∧ z < (2 ^ (8 * j - 1) : Nat) := by exact_mod_cast h
  have hfront : 256 ^ j ≤ 256 ^ k * 256 ^ j := Nat.le_mul_of_pos_left _ (Nat.pow_pos (by decide))
  have hones : (256 ^ k - 1) * 256 ^ j = 2 ^ 256 - 256 ^ j := by rw [Nat.sub_one_mul, hword]
  generalize 256 ^ j = low at *
  generalize 2 ^ (8 * j - 1) = half at *
  split
  · -- A negative integer of the width lies within the last step of the front bytes.
    have hsplit : (z % 2 ^ 256).toNat = (low + z).toNat + (256 ^ k - 1) * low := by omega
    rw [hsplit, Nat.add_mul_div_right _ _ (by omega), Nat.div_eq_of_lt (by omega), Nat.zero_add, bigEndian_ones]
  · have hsmall : (z % 2 ^ 256).toNat < low := by omega
    rw [Nat.div_eq_of_lt hsmall, bigEndian_zero]

/-! ## Decoding -/

theorem decodeValue_word (ht : t.isScalar = true) (w : Word) :
    decodeValue t (wordBytes w) 0 = .ok (t.valueOfWord w) := by
  have hlen : (wordBytes w).length = 32 := length_wordBytes w
  have hword : Payload.word (wordBytes w) 0 = .ok w := Payload.word_ok_iff.mpr ⟨by decide, holds_self _⟩
  have hruns : Runs (decodeAt (wordBytes w) t 0) (.ok (t.valueOfWord w)) 1 :=
    (runs_scalar_iff ht).mpr ⟨w, hword, rfl, rfl⟩
  exact run_of_le (by omega) hruns (by rw [hlen]; decide)

theorem decodeValue_int (hw : ParamType.IsWidth bits) (hz : InIntRange bits z) :
    ∃ i, decodeValue (.int bits) (integerWord z) 0 = .ok (.int i) ∧ i.toInt = z := by
  obtain ⟨h8, h256, -⟩ := hw
  have hrange : InIntRange 256 z := hz.mono h256
  have hi : (Signed.ofInt z).toInt = z := Signed.toInt_ofInt (by unfold InIntRange at hrange; omega)
  have hfits : (Signed.ofInt z).fits 256 = true := by
    rw [Signed.fits_iff (by decide) (by decide), hi]
    exact hrange
  have hword : integerWord z = wordBytes (Signed.ofInt z).toTwosComplement := by
    rw [Signed.wordBytes_toTwosComplement, hi]
  refine ⟨Signed.ofInt z, ?_, hi⟩
  rw [hword, decodeValue_word rfl, ParamType.valueOfWord, Signed.ofTwosComplement_toTwosComplement hfits]

theorem decodeValue_uint (hw : ParamType.IsWidth bits) (hz : InUintRange bits z) :
    ∃ w, decodeValue (.uint bits) (bigEndian wordSize z.toNat) 0 = .ok (.uint w) ∧ (w.toNat : Int) = z := by
  obtain ⟨-, h256, -⟩ := hw
  have hrange : InUintRange 256 z := hz.mono h256
  unfold InUintRange at hrange
  refine ⟨BitVec.ofNat 256 z.toNat, ?_, ?_⟩
  · rw [← wordBytes_ofNat (by omega), decodeValue_word rfl, ParamType.valueOfWord]
  · rw [BitVec.toNat_ofNat]
    omega

/-! ## Exact integers -/

/-- The value is encoded under the width as the integer `z`, or refused because of it. -/
structure EncodedExactly (bits : Nat) (v : Value) (z : Int) : Prop where
  int : Scalar.encodeInt bits v =
    if InIntRange bits z then .ok (integerWord z) else .error (.outOfRange (.int bits) (Signed.ofInt z))
  uint : Scalar.encodeUint bits v =
    if z < 0 then .error .negative
    else if z < 2 ^ bits then .ok (bigEndian wordSize z.toNat)
    else .error (.outOfRange (.uint bits) (Signed.ofInt z))
  /-- In front of the bytes of the width there is only the sign. -/
  filled (hz : InIntRange bits z) : (integerWord z).take (wordSize - bits / 8) =
    List.replicate (wordSize - bits / 8) (if z < 0 then 0xff else 0)
  decodedInt (hz : InIntRange bits z) :
    ∃ i, decodeValue (.int bits) (integerWord z) 0 = .ok (.int i) ∧ i.toInt = z
  decodedUint (hz : InUintRange bits z) :
    ∃ w, decodeValue (.uint bits) (bigEndian wordSize z.toNat) 0 = .ok (.uint w) ∧ (w.toNat : Int) = z
  wider (wide : Nat) (hw : ParamType.IsWidth wide) (hle : bits ≤ wide) (e : Bytes) :
    (Scalar.encodeInt bits v = .ok e → Scalar.encodeInt wide v = .ok e) ∧
      (Scalar.encodeUint bits v = .ok e → Scalar.encodeUint wide v = .ok e)

theorem encodeInt_ok_iff (hw : ParamType.IsWidth bits) (h : Denotes v z) :
    Scalar.encodeInt bits v = .ok e ↔ InIntRange bits z ∧ integerWord z = e := by
  rw [Scalar.encodeInt_of_denotes hw h]
  split <;> simp [*]

theorem encodeUint_ok_iff (hw : ParamType.IsWidth bits) (h : Denotes v z) :
    Scalar.encodeUint bits v = .ok e ↔ InUintRange bits z ∧ bigEndian wordSize z.toNat = e := by
  rw [Scalar.encodeUint_of_denotes hw h, InUintRange, ← Int.not_lt]
  split
  · simp [*]
  · split <;> simp [*]

theorem encodedExactly (hw : ParamType.IsWidth bits) (h : Denotes v z) : EncodedExactly bits v z where
  int := Scalar.encodeInt_of_denotes hw h
  uint := Scalar.encodeUint_of_denotes hw h
  filled := take_integerWord hw
  decodedInt := decodeValue_int hw
  decodedUint := decodeValue_uint hw
  wider wide hwide hle e := by
    constructor
    · intro he
      obtain ⟨hz, he⟩ := (encodeInt_ok_iff hw h).mp he
      exact (encodeInt_ok_iff hwide h).mpr ⟨hz.mono hle, he⟩
    · intro he
      obtain ⟨hz, he⟩ := (encodeUint_ok_iff hw h).mp he
      exact (encodeUint_ok_iff hwide h).mpr ⟨hz.mono hle, he⟩

/-- Encoding an integer is exact, and depends on nothing but the integer. Under a width that integers
may have, a value is encoded as the integer that it denotes; under no other is any value encoded;
values that denote the same integer are encoded alike; and a number in JSON is read as a value that
denotes it. -/
theorem encode_integer_exact (bits : Nat) :
    (∀ v z, ParamType.IsWidth bits → Denotes v z → EncodedExactly bits v z) ∧
    (∀ v, ¬ ParamType.IsWidth bits →
      Scalar.encodeInt bits v = .error (.badWidth (ParamType.int bits).name) ∧
        Scalar.encodeUint bits v = .error (.badWidth (ParamType.uint bits).name)) ∧
    (∀ v v' z, Denotes v z → Denotes v' z →
      Scalar.encodeInt bits v = Scalar.encodeInt bits v' ∧ Scalar.encodeUint bits v = Scalar.encodeUint bits v') ∧
    ∀ z, -2 ^ 63 ≤ z → z < 2 ^ 64 → ∀ t, t = .int bits ∨ t = .uint bits →
      ∃ v, Value.ofJson t (.integer z) = .ok v ∧ Denotes v z := by
  have hrefused (v : Value) (hw : ¬ ParamType.IsWidth bits) :
      Scalar.encodeInt bits v = .error (.badWidth (ParamType.int bits).name) ∧
        Scalar.encodeUint bits v = .error (.badWidth (ParamType.uint bits).name) := by
    unfold Scalar.encodeInt Scalar.encodeUint
    exact ⟨if_pos hw, if_pos hw⟩
  refine ⟨fun v z => encodedExactly, hrefused, fun v v' z h h' => ?_, fun z hlow hhigh t ht => ?_⟩
  · by_cases hw : ParamType.IsWidth bits
    · have hv := encodedExactly hw h
      have hv' := encodedExactly hw h'
      exact ⟨hv.int.trans hv'.int.symm, hv.uint.trans hv'.uint.symm⟩
    · obtain ⟨hint, huint⟩ := hrefused v hw
      obtain ⟨hint', huint'⟩ := hrefused v' hw
      exact ⟨hint.trans hint'.symm, huint.trans huint'.symm⟩
  · exact denotes_of_json ht hlow hhigh

theorem encode_integer_exact_lowest :
    (ParamType.IsWidth 16 ∧ Denotes (.string " -0x8000") (-32768)) ∧
    Scalar.encodeInt 16 (.string " -0x8000") = .ok (List.replicate 30 0xff ++ [0x80, 0x00]) ∧
      Scalar.encodeInt 24 (.string " -0x8000") = .ok (List.replicate 30 0xff ++ [0x80, 0x00]) := by
  have hw : ParamType.IsWidth 16 := by decide
  have hread : Signed.ofLiteral " -0x8000" = .ok (Signed.ofInt (-32768)) := eq_ok_of_toOption (by decide +kernel)
  have hdenotes : Denotes (.string " -0x8000") (-32768) := .literal hread
  have hexact : EncodedExactly 16 (.string " -0x8000") (-32768) := (encode_integer_exact 16).1 _ _ hw hdenotes
  have hword : Scalar.encodeInt 16 (.string " -0x8000") = .ok (List.replicate 30 0xff ++ [0x80, 0x00]) := by
    rw [hexact.int, if_pos (by decide)]
    exact congrArg Except.ok (by decide +kernel)
  exact ⟨⟨hw, hdenotes⟩, hword, (hexact.wider 24 (by decide) (by decide) _).1 hword⟩

end Calldata
