import Calldata.Codec
import Calldata.Proofs.Forms
import Calldata.Proofs.Reading
import Calldata.Proofs.TwosComplement

/-!
# Values of one word

When a scalar can be encoded, and as which word.
-/

namespace Calldata

variable {t : ParamType} {k : IdKind} {v : Value} {e : Bytes} {bits : Nat}

namespace Scalar

theorem encodeInt_iff :
    encodeInt bits v = .ok e ↔ ParamType.IsWidth bits ∧
      ∃ i, integerOf (.int bits) v = .ok i ∧ i.fits bits = true ∧ wordBytes i.toTwosComplement = e := by
  unfold encodeInt
  by_cases hw : ParamType.IsWidth bits
  · cases hi : integerOf (.int bits) v with
    | error f => simp [hw, hi]
    | ok i => cases hf : i.fits bits <;> simp [hw, hi, hf]
  · simp [hw]

theorem encodeUint_iff :
    encodeUint bits v = .ok e ↔ ParamType.IsWidth bits ∧
      ∃ i, integerOf (.uint bits) v = .ok i ∧ i.negative = false ∧ i.magnitude.toNat < 2 ^ bits ∧
        wordBytes i.magnitude = e := by
  unfold encodeUint
  by_cases hw : ParamType.IsWidth bits
  · cases hi : integerOf (.uint bits) v with
    | error f => simp [hw, hi]
    | ok i =>
      cases hn : i.negative with
      | true => simp [hw, hi, hn]
      | false => by_cases hm : i.magnitude.toNat < 2 ^ bits <;> simp [hw, hi, hn, hm, Nat.one_shiftLeft]
  · simp [hw]

theorem encodeBool_iff :
    encodeBool v = .ok e ↔ ∃ b, truthOf v = .ok b ∧ wordBytes (if b then 1 else 0) = e := by
  unfold encodeBool
  exact map_ok_iff

theorem encodeIdentifier_iff :
    encodeIdentifier k v = .ok e ↔ ∃ id, identifierOf k v = .ok id ∧ padLeft wordSize id.bytes = e := by
  unfold encodeIdentifier
  exact map_ok_iff

theorem encodeBytes32_iff :
    encodeBytes32 v = .ok e ↔ ∃ bs, blobOf .bytes32 v = .ok bs ∧ bs.length ≤ wordSize ∧
      (isLiteral v = true → bs.length = wordSize) ∧ padRight wordSize bs = e := by
  unfold encodeBytes32
  cases hbs : blobOf .bytes32 v with
  | error f => simp
  | ok bs =>
    by_cases hl : wordSize < bs.length ∨ (isLiteral v = true ∧ bs.length ≠ wordSize)
    · simp only [if_pos hl, reduceCtorEq, Except.ok.injEq, exists_eq_left', false_iff]
      rintro ⟨hle, hlit, -⟩
      rcases hl with hlt | ⟨h, hne⟩
      · omega
      · exact hne (hlit h)
    · simp only [if_neg hl, Except.ok.injEq, exists_eq_left']
      rw [not_or, Nat.not_lt, not_and, Decidable.not_not] at hl
      exact ⟨fun h => ⟨hl.1, hl.2, h⟩, fun h => h.2.2⟩

theorem encodeFunction_iff :
    encodeFunction v = .ok e ↔ ∃ bs, blobOf .function v = .ok bs ∧ bs.length = functionSize ∧
      padRight wordSize bs = e := by
  unfold encodeFunction
  cases hbs : blobOf .function v with
  | error f => simp
  | ok bs => by_cases hl : bs.length = functionSize <;> simp [hl]

end Scalar

theorem length_word_of_ok (ht : t.isScalar = true ∨ t = .function) (h : encodeValue t v = .ok e) :
    e.length = wordSize := by
  cases t with
  | int bits =>
    obtain ⟨-, i, -, -, he⟩ := Scalar.encodeInt_iff.mp h
    rw [← he, length_wordBytes]
  | uint bits =>
    obtain ⟨-, i, -, -, -, he⟩ := Scalar.encodeUint_iff.mp h
    rw [← he, length_wordBytes]
  | bool =>
    obtain ⟨b, -, he⟩ := Scalar.encodeBool_iff.mp h
    rw [← he, length_wordBytes]
  | identifier k =>
    obtain ⟨id, -, he⟩ := Scalar.encodeIdentifier_iff.mp h
    rw [← he, length_padLeft (id.length_bytes ▸ k.size_le_wordSize)]
  | bytes32 =>
    obtain ⟨bs, -, hle, -, he⟩ := Scalar.encodeBytes32_iff.mp h
    rw [← he, length_padRight hle]
  | function =>
    obtain ⟨bs, -, hlen, he⟩ := Scalar.encodeFunction_iff.mp h
    rw [← he, length_padRight (hlen ▸ (by decide))]
  | bytes | string | fixedArray | array => simp [ParamType.isScalar] at ht

end Calldata
