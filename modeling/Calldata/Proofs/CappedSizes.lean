import Calldata.Proofs.Safety
import Calldata.Proofs.StaticTypes

/-!
# Sizes that stop at the largest one

The size of a type stops at the largest size that can be named, at whatever depth its product gets
too large. The room for the items of an array is computed from that size with sums and products
that are looked at, and is granted exactly when the data have the room that the items really take.
-/

namespace Calldata

variable {data : Bytes} {t : ParamType} {count start size : Nat}

/-- The room that a value of the type takes in a head, however large it is. -/
def ParamType.exactHeadSize (t : ParamType) : Nat :=
  if t.isDynamic then wordSize else wordSize * t.wordCount

theorem staticSize_of_isDynamic (hd : t.isDynamic = true) : t.staticSize = 0 := by
  induction t using ParamType.codecInduction with
  | scalar t ht => cases t <;> simp [ParamType.isScalar, ParamType.isDynamic] at ht hd
  | function => simp [ParamType.isDynamic] at hd
  | bytes | string | array => rfl
  | fixedArray elem n ih =>
    have hdelem : elem.isDynamic = true := hd
    unfold ParamType.staticSize
    rw [ih hdelem, Nat.zero_mul]
    exact Nat.min_eq_left (Nat.zero_le _)

theorem staticSize_eq_zero_iff (hw : t.WellFormed) : t.staticSize = 0 ↔ t.isDynamic = true := by
  refine ⟨fun h => ?_, staticSize_of_isDynamic⟩
  by_contra hd
  have hstatic : t.isDynamic = false := by simpa using hd
  -- Even the smallest slot has room for a word.
  have hle := ParamType.wordSize_le_headSize hw
  rw [headSize_eq hstatic, h] at hle
  exact absurd hle (by decide)

theorem headSize_eq_min (t : ParamType) : t.headSize = min t.exactHeadSize maxSize := by
  unfold ParamType.exactHeadSize
  cases hd : t.isDynamic with
  | true =>
    rw [ParamType.headSize_of_isDynamic hd]
    rfl
  | false =>
    rw [headSize_eq hd, staticSize_eq hd]
    rfl

/-- Items whose size was cut down do not fit, unless there are none of them. -/
theorem capped_room_iff (hlen : data.length < maxSize) :
    min (min size maxSize * count + start) maxSize ≤ data.length ↔ start + count * size ≤ data.length := by
  rcases Nat.eq_zero_or_pos count with rfl | hcount
  · simp only [Nat.mul_zero, Nat.zero_mul, Nat.zero_add, Nat.add_zero]
    omega
  · have hsize : size ≤ count * size := Nat.le_mul_of_pos_left size hcount
    have hmax : maxSize ≤ maxSize * count := Nat.le_mul_of_pos_right maxSize hcount
    rcases Nat.le_total size maxSize with hle | hle
    · rw [Nat.min_eq_left hle, Nat.mul_comm]
      omega
    · rw [Nat.min_eq_right hle]
      omega

theorem Guarded.checkRoom_ok_iff : Guarded.checkRoom size count data start = .ok () ↔
    Payload.checkRoom size count data start = .ok () := by
  unfold Guarded.checkRoom
  rw [checked_room, Payload.checkRoom_ok_iff]
  by_cases hroom : data.length < min (size * count + start) maxSize
  · simp only [if_pos hroom, reduceCtorEq, false_iff]
    exact Nat.not_le_of_lt hroom
  · simp only [if_neg hroom, true_iff]
    exact Nat.le_of_not_lt hroom

theorem checkRoom_exact (hlen : data.length < 2 ^ 63) (t : ParamType) :
    Payload.checkRoom t.headSize count data start = .ok () ↔ start + count * t.exactHeadSize ≤ data.length := by
  rw [Payload.checkRoom_ok_iff, headSize_eq_min]
  exact capped_room_iff (lt_maxSize hlen)

/-- The size of a type that can be named is zero for dynamic types only, and the capped product of
the lengths for static ones. A slot has room for a word. There is room for items, by capped sums and
by those of a machine, exactly when the data have room for what they really take. -/
theorem sizes_capped (t : ParamType) (hw : t.WellFormed) :
    (t.staticSize = 0 ↔ t.isDynamic = true) ∧
    (t.isDynamic = false → t.staticSize = min (wordSize * t.wordCount) maxSize) ∧
    wordSize ≤ t.headSize ∧
    ∀ count start data, data.length < 2 ^ 63 →
      (Payload.checkRoom t.headSize count data start = .ok () ↔
        start + count * t.exactHeadSize ≤ data.length) ∧
      (Guarded.checkRoom t.headSize count data start = .ok () ↔
        start + count * t.exactHeadSize ≤ data.length) := by
  refine ⟨staticSize_eq_zero_iff hw, staticSize_eq, ParamType.wordSize_le_headSize hw, ?_⟩
  intro count start data hlen
  have hroom : Payload.checkRoom t.headSize count data start = .ok () ↔
      start + count * t.exactHeadSize ≤ data.length := checkRoom_exact hlen t
  exact ⟨hroom, Guarded.checkRoom_ok_iff.trans hroom⟩

/-- The size of as many pairs as can be named is cut down, and twice that size is cut down again. There
is room for none of them at the end of data, but not for one at their start. -/
theorem sizes_capped_inside :
    let pairs := ParamType.fixedArray (.fixedArray .bool 2) (2 ^ 64 - 1)
    let t := ParamType.fixedArray pairs 2
    let data := zeros 64
    (t.WellFormed ∧ data.length < 2 ^ 63) ∧
      (t.isDynamic = false ∧ pairs.staticSize = maxSize ∧ t.staticSize = maxSize ∧
        t.exactHeadSize = 128 * (2 ^ 64 - 1)) ∧
      Payload.checkRoom t.headSize 0 data 64 = .ok () ∧ ¬ Payload.checkRoom t.headSize 1 data 0 = .ok () := by
  intro pairs t data
  have hw : t.WellFormed := by
    simp [t, pairs, ParamType.WellFormed, ParamType.IsArrayLength, maxSize]
  have hlen : data.length = 64 := length_zeros 64
  have hexact : t.exactHeadSize = 128 * (2 ^ 64 - 1) := by decide
  obtain ⟨-, hsize, -, hroom⟩ := sizes_capped t hw
  obtain ⟨hnone, -⟩ := hroom 0 64 data (by omega)
  obtain ⟨hone, -⟩ := hroom 1 0 data (by omega)
  refine ⟨⟨hw, by omega⟩, ⟨rfl, by decide, (hsize rfl).trans (by decide), hexact⟩, hnone.mpr (by omega), ?_⟩
  rw [hone, hexact]
  omega

end Calldata
