import Calldata.Proofs.Spelling
import Calldata.Proofs.Words

/-!
# The order of identifiers

Identifiers are ordered by their bytes. Their texts, the numbers that their bytes spell and the words
that they are encoded as stand in the same order, so each of these forms tells identifiers apart.
-/

namespace Calldata

variable {k : IdKind} {as bs : Bytes} {a b m x y : Nat}

/-! ## Numbers -/

theorem compare_congr (hlt : x < y → a < b) (hgt : y < x → b < a) (heq : x = y → a = b) : compare a b = compare x y := by
  rcases Nat.lt_trichotomy x y with h | h | h
  · rw [Nat.compare_eq_lt.mpr h, Nat.compare_eq_lt.mpr (hlt h)]
  · rw [Nat.compare_eq_eq.mpr h, Nat.compare_eq_eq.mpr (heq h)]
  · rw [Nat.compare_eq_gt.mpr h, Nat.compare_eq_gt.mpr (hgt h)]

theorem compare_digits (hx : x < m) (hy : y < m) :
    compare (m * a + x) (m * b + y) = (compare a b).then (compare x y) := by
  -- The last digit decides only where the digits in front of it are the same.
  rcases Nat.lt_trichotomy a b with hlt | rfl | hgt
  · have hmul : m * a + m ≤ m * b := Nat.mul_le_mul_left m hlt
    rw [Nat.compare_eq_lt.mpr hlt, Nat.compare_eq_lt.mpr (by omega)]
    rfl
  · rw [Nat.compare_eq_eq.mpr rfl, Ordering.eq_then]
    exact compare_congr (by omega) (by omega) (by omega)
  · have hmul : m * b + m ≤ m * a := Nat.mul_le_mul_left m hgt
    rw [Nat.compare_eq_gt.mpr hgt, Nat.compare_eq_gt.mpr (by omega)]
    rfl

theorem ofBigEndian_cons (b : UInt8) (bs : Bytes) :
    ofBigEndian (b :: bs) = 256 ^ bs.length * b.toNat + ofBigEndian bs := by
  induction bs using List.reverseRecOn with
  | nil => simp [ofBigEndian]
  | append_singleton bs c ih =>
    rw [← List.cons_append, ofBigEndian_append_singleton, ofBigEndian_append_singleton, ih, List.length_append,
      List.length_singleton, Nat.pow_succ, Nat.mul_add, ← Nat.mul_assoc, Nat.mul_comm 256, Nat.add_assoc]

/-! ## Byte strings -/

theorem compareBytes_eq_iff : compareBytes as bs = .eq ↔ as = bs := by
  induction as generalizing bs with
  | nil => cases bs <;> simp [compareBytes]
  | cons a as ih =>
    cases bs with
    | nil => simp [compareBytes]
    | cons b bs => simp [compareBytes, Ordering.then_eq_eq, ih, UInt8.toNat_inj]

theorem compareBytes_append_left (front as bs : Bytes) :
    compareBytes (front ++ as) (front ++ bs) = compareBytes as bs := by
  induction front with
  | nil => rfl
  | cons b front ih =>
    rw [List.cons_append, List.cons_append, compareBytes, ih, Nat.compare_eq_eq.mpr rfl]
    rfl

theorem compareBytes_eq_compare (h : as.length = bs.length) :
    compareBytes as bs = compare (ofBigEndian as) (ofBigEndian bs) := by
  induction as generalizing bs with
  | nil =>
    obtain rfl := List.eq_nil_of_length_eq_zero h.symm
    rfl
  | cons a as ih =>
    cases bs with
    | nil => simp at h
    | cons b bs =>
      have hlen : as.length = bs.length := Nat.succ.inj h
      have hfirst := ofBigEndian_lt as
      rw [hlen] at hfirst
      rw [compareBytes, ih hlen, ofBigEndian_cons, ofBigEndian_cons, hlen, compare_digits hfirst (ofBigEndian_lt bs)]

theorem compareBytes_padLeft (h : as.length = bs.length) :
    compareBytes (padLeft wordSize as) (padLeft wordSize bs) = compareBytes as bs := by
  rw [padLeft, padLeft, h, compareBytes_append_left]

/-! ## Hexadecimal digits -/

theorem hexDigitChar_lt (h : x < y) (hy : y < 16) :
    (asciiByte (hexDigitChar x)).toNat < (asciiByte (hexDigitChar y)).toNat := by
  have hall : ∀ y < 16, ∀ x < y, (asciiByte (hexDigitChar x)).toNat < (asciiByte (hexDigitChar y)).toNat := by decide
  exact hall y hy x h

theorem compare_hexDigitChar (hx : x < 16) (hy : y < 16) :
    compare (asciiByte (hexDigitChar x)).toNat (asciiByte (hexDigitChar y)).toNat = compare x y :=
  compare_congr (fun h => hexDigitChar_lt h hy) (fun h => hexDigitChar_lt h hx) (fun h => by rw [h])

theorem compareBytes_byteDigits (a b : UInt8) (as bs : Bytes) :
    compareBytes ((Hex.byteDigits a).map asciiByte ++ as) ((Hex.byteDigits b).map asciiByte ++ bs) =
      (compare a.toNat b.toNat).then (compareBytes as bs) := by
  have ha : a.toNat < 256 := a.toNat_lt
  have hb : b.toNat < 256 := b.toNat_lt
  have hdigits : compare a.toNat b.toNat =
      (compare (a.toNat / 16) (b.toNat / 16)).then (compare (a.toNat % 16) (b.toNat % 16)) := by
    rw [← compare_digits (m := 16) (Nat.mod_lt _ (by omega)) (Nat.mod_lt _ (by omega)), Nat.div_add_mod, Nat.div_add_mod]
  simp only [Hex.byteDigits, List.map_cons, List.map_nil, List.cons_append, List.nil_append, compareBytes]
  rw [compare_hexDigitChar (by omega) (by omega), compare_hexDigitChar (by omega) (by omega), hdigits,
    Ordering.then_assoc]

theorem compareBytes_digits (as bs : Bytes) :
    compareBytes ((as.flatMap Hex.byteDigits).map asciiByte) ((bs.flatMap Hex.byteDigits).map asciiByte) =
      compareBytes as bs := by
  induction as generalizing bs with
  | nil => cases bs <;> rfl
  | cons a as ih =>
    cases bs with
    | nil => rfl
    | cons b bs =>
      rw [List.flatMap_cons, List.flatMap_cons, List.map_append, List.map_append, compareBytes_byteDigits, ih, compareBytes]

theorem utf8_marked (bs : Bytes) :
    Text.utf8 (Hex.marked bs) = [0x30, 0x78] ++ (bs.flatMap Hex.byteDigits).map asciiByte := by
  have hbytes := utf8_of_plain (Hex.isPlain_marked bs)
  rwa [String.ofList_toList, Hex.toList_marked] at hbytes

theorem compareBytes_marked (as bs : Bytes) :
    compareBytes (Text.utf8 (Hex.marked as)) (Text.utf8 (Hex.marked bs)) = compareBytes as bs := by
  rw [utf8_marked, utf8_marked, compareBytes_append_left, compareBytes_digits]

/-! ## Identifiers -/

namespace Identifier

theorem compare_eq (a b : Identifier k) : compare a b = compareBytes a.bytes b.bytes := rfl

theorem compare_eq_eq_iff {a b : Identifier k} : compare a b = .eq ↔ a = b := by
  obtain ⟨as, ha⟩ := a
  obtain ⟨bs, hb⟩ := b
  rw [compare_eq, compareBytes_eq_iff, mk.injEq]

theorem encodeIdentifier_self (a : Identifier k) :
    Scalar.encodeIdentifier k (.identifier k a) = .ok (padLeft wordSize a.bytes) := by
  apply Scalar.encodeIdentifier_iff.mpr
  exact ⟨a, dif_pos rfl, rfl⟩

/-- The texts, the numbers and the words of two identifiers compare like the identifiers themselves, and
in each of these forms two identifiers are different. -/
theorem compare_forms (a b : Identifier k) :
    compareBytes (Text.utf8 a.text) (Text.utf8 b.text) = compare a b ∧
    compare (ofBigEndian a.bytes) (ofBigEndian b.bytes) = compare a b ∧
    (∃ v w, Scalar.encodeIdentifier k (.identifier k a) = .ok v ∧ Scalar.encodeIdentifier k (.identifier k b) = .ok w ∧
      v.length = wordSize ∧ w.length = wordSize ∧ compareBytes v w = compare a b ∧ (v = w ↔ a = b)) ∧
    (compare a b = .eq ↔ a = b) ∧ (a.text = b.text ↔ a = b) ∧
    (ofBigEndian a.bytes = ofBigEndian b.bytes ↔ a = b) := by
  have hlen : a.bytes.length = b.bytes.length := by rw [a.length_bytes, b.length_bytes]
  have htext : compareBytes (Text.utf8 a.text) (Text.utf8 b.text) = compare a b := compareBytes_marked a.bytes b.bytes
  have hnumber : compare (ofBigEndian a.bytes) (ofBigEndian b.bytes) = compare a b :=
    (compareBytes_eq_compare hlen).symm
  have hword : compareBytes (padLeft wordSize a.bytes) (padLeft wordSize b.bytes) = compare a b :=
    compareBytes_padLeft hlen
  have hlength (c : Identifier k) : (padLeft wordSize c.bytes).length = wordSize :=
    length_padLeft (c.length_bytes ▸ k.size_le_wordSize)
  refine ⟨htext, hnumber, ⟨_, _, encodeIdentifier_self a, encodeIdentifier_self b, hlength a, hlength b, hword, ?_⟩,
    compare_eq_eq_iff, ?_, ?_⟩
  · rw [← compareBytes_eq_iff, hword, compare_eq_eq_iff]
  · have hinjective : a.text = b.text ↔ Text.utf8 a.text = Text.utf8 b.text :=
      ⟨congrArg Text.utf8, Text.utf8_injective⟩
    rw [hinjective, ← compareBytes_eq_iff, htext, compare_eq_eq_iff]
  · rw [← Nat.compare_eq_eq, hnumber, compare_eq_eq_iff]

end Identifier

end Calldata
