import Calldata.Scalar

/-!
# Types by the form of their encoding

The codec treats all types alike whose values are single words. They share one case of the
inductions over types.
-/

namespace Calldata

namespace ParamType

/-- The values of the type are single words, and they can be decoded. -/
def isScalar : ParamType → Bool
  | int _ | uint _ | bool | identifier _ | bytes32 => true
  | _ => false

/-- The value that a word spells under a scalar type. -/
def valueOfWord : ParamType → Word → Value
  | int _, w => .int (Signed.ofTwosComplement w)
  | uint _, w => .uint w
  | bool, w => .bool (Scalar.isTrue w)
  | identifier k, w => .identifier k (Scalar.identifierOfWord k w)
  | _, w => .bytes (wordBytes w)

/-- Induction over types with all scalars in one case. -/
@[elab_as_elim]
theorem codecInduction {motive : ParamType → Prop} (t : ParamType)
    (scalar : ∀ t, t.isScalar = true → motive t) (function : motive .function)
    (bytes : motive .bytes) (string : motive .string)
    (fixedArray : ∀ elem n, motive elem → motive (.fixedArray elem n))
    (array : ∀ elem, motive elem → motive (.array elem)) : motive t := by
  induction t with
  | int bits | uint bits => exact scalar _ rfl
  | bool | bytes32 => exact scalar _ rfl
  | identifier k => exact scalar _ rfl
  | bytes => exact bytes
  | string => exact string
  | function => exact function
  | fixedArray elem n ih => exact fixedArray elem n ih
  | array elem ih => exact array elem ih

theorem forall_items {P : ParamType → Prop} {elem : ParamType} {n : Nat} (h : P elem) :
    ∀ t ∈ List.replicate n elem, P t := by
  intro t ht
  rw [List.eq_of_mem_replicate ht]
  exact h

theorem headSize_of_isScalar {t : ParamType} (h : t.isScalar = true) : t.headSize = wordSize := by
  cases t <;> simp_all [isScalar, isDynamic, headSize, staticSize]

theorem headSize_of_isDynamic {t : ParamType} (h : t.isDynamic = true) : t.headSize = wordSize := by
  rw [headSize, if_pos h]

theorem wordSize_le_headSize {t : ParamType} (hw : t.WellFormed) : wordSize ≤ t.headSize := by
  induction t using codecInduction with
  | scalar t ht => exact Nat.le_of_eq (headSize_of_isScalar ht).symm
  | function | bytes | string => decide
  | array elem ih => exact Nat.le_of_eq (headSize_of_isDynamic rfl).symm
  | fixedArray elem n ih =>
    cases hd : (fixedArray elem n).isDynamic with
    | true => exact Nat.le_of_eq (headSize_of_isDynamic hd).symm
    | false =>
      have hdelem : elem.isDynamic = false := hd
      obtain ⟨helem, hn, -⟩ := hw
      have hle := ih helem
      rw [headSize, if_neg (by simp [hdelem])] at hle
      rw [headSize, if_neg (by simp [hd]), staticSize]
      have hmul : elem.staticSize ≤ elem.staticSize * n := Nat.le_mul_of_pos_right _ hn
      exact Nat.le_min.mpr ⟨Nat.le_trans hle hmul, by decide⟩

/-- The room of the offset that leads to a dynamic value. -/
def offsetSize (t : ParamType) : Nat := if t.isDynamic then wordSize else 0

end ParamType

end Calldata
