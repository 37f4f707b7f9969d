import Calldata.Cli.Run
import Mathlib.Algebra.Order.Ring.Nat

/-!
# What is written is read back

The numerals and the hexadecimal text that values are shown in are ASCII without blanks, so the
readers find the same digits in them, whether as characters or as bytes.
-/

namespace Calldata

variable {cs : List Char} {c : Char}

/-! ## Plain texts -/

/-- A character of one byte that no reader takes for a blank. -/
def IsPlain (c : Char) : Prop := c.toNat < 128 ∧ Text.isBlank c = false

instance : DecidablePred IsPlain := fun c => by unfold IsPlain; infer_instance

def asciiByte (c : Char) : UInt8 := UInt8.ofNat c.toNat

theorem trim_of_plain (h : ∀ c ∈ cs, IsPlain c) : Text.trim cs = cs := by
  have hkeep (cs : List Char) (h : ∀ c ∈ cs, IsPlain c) : cs.dropWhile Text.isBlank = cs := by
    cases cs with
    | nil => rfl
    | cons c cs =>
      apply List.dropWhile_cons_of_neg
      simp [(h c List.mem_cons_self).2]
  unfold Text.trim
  rw [hkeep cs h, hkeep cs.reverse (by simpa using h), List.reverse_reverse]

theorem utf8_of_plain (h : ∀ c ∈ cs, IsPlain c) : Text.utf8 (String.ofList cs) = cs.map asciiByte := by
  unfold Text.utf8
  rw [String.toByteArray_ofList]
  induction cs with
  | nil => rfl
  | cons c cs ih =>
    have hsize : c.utf8Size = 1 := by
      rw [Char.utf8Size_eq_one_iff, UInt32.le_iff_toNat_le]
      exact Nat.le_of_lt_succ (h c List.mem_cons_self).1
    rw [List.utf8Encode_cons, List.utf8Encode_singleton, String.utf8EncodeChar_eq_singleton hsize,
      ByteArray.toList_data_append, ih fun d hd => h d (List.mem_cons_of_mem c hd)]
    rfl

/-! ## Hexadecimal text -/

namespace Hex

theorem isPlain_hexDigitChar {d : Nat} (h : d < 16) : IsPlain (hexDigitChar d) := by
  revert d
  decide

theorem digit?_hexDigitChar {d : Nat} (h : d < 16) : digit? (asciiByte (hexDigitChar d)) = some d := by
  revert d
  decide

theorem isPlain_digits (bs : Bytes) : ∀ c ∈ bs.flatMap byteDigits, IsPlain c := by
  intro c hc
  obtain ⟨b, -, hb⟩ := List.mem_flatMap.mp hc
  have hlt : b.toNat < 256 := b.toNat_lt
  rcases List.mem_cons.mp hb with rfl | hb
  · exact isPlain_hexDigitChar (by omega)
  · obtain rfl := List.mem_singleton.mp hb
    exact isPlain_hexDigitChar (by omega)

theorem length_digits (bs : Bytes) : (bs.flatMap byteDigits).length = 2 * bs.length := by
  induction bs with
  | nil => rfl
  | cons b bs ih =>
    rw [List.flatMap_cons, List.length_append, ih, List.length_cons]
    simp only [byteDigits, List.length_cons, List.length_nil]
    omega

theorem pairs_digits (bs : Bytes) (position : Nat) :
    pairs position ((bs.flatMap byteDigits).map asciiByte) = .ok bs := by
  induction bs generalizing position with
  | nil => rfl
  | cons b bs ih =>
    have hlt : b.toNat < 256 := b.toNat_lt
    have hhigh := digit?_hexDigitChar (d := b.toNat / 16) (by omega)
    have hlow := digit?_hexDigitChar (d := b.toNat % 16) (by omega)
    have hbyte : UInt8.ofNat (16 * (b.toNat / 16) + b.toNat % 16) = b := by
      rw [Nat.div_add_mod, UInt8.ofNat_toNat]
    simp only [List.flatMap_cons, byteDigits, List.cons_append, List.nil_append, List.map_cons]
    unfold pairs
    simp only [digit, hhigh, hlow, ih]
    exact congrArg (fun b => Except.ok (b :: bs)) hbyte

theorem decode_digits (bs : Bytes) : decode ((bs.flatMap byteDigits).map asciiByte) = .ok bs := by
  unfold decode
  rw [if_neg (by rw [List.length_map, length_digits]; omega)]
  exact pairs_digits bs 0

theorem toList_marked (bs : Bytes) : (marked bs).toList = '0' :: 'x' :: bs.flatMap byteDigits := by
  simp [marked, encode]

theorem isPlain_marked (bs : Bytes) : ∀ c ∈ (marked bs).toList, IsPlain c := by
  rw [toList_marked]
  simp only [List.forall_mem_cons]
  exact ⟨by decide, by decide, isPlain_digits bs⟩

@[simp] theorem ofText_marked (bs : Bytes) : ofText (marked bs) = .ok bs := by
  have hbytes := utf8_of_plain (isPlain_marked bs)
  rw [String.ofList_toList, toList_marked] at hbytes
  unfold ofText
  rw [hbytes]
  exact decode_digits bs

end Hex

@[simp] theorem Cli.payloadOf_marked (bs : Bytes) : Cli.payloadOf (Hex.marked bs) = .ok bs := by
  unfold Cli.payloadOf
  simp only [trim_of_plain (Hex.isPlain_marked bs)]
  rw [Hex.toList_marked, Hex.markedDigits?, Option.getD_some, utf8_of_plain (Hex.isPlain_digits bs)]
  exact Hex.decode_digits bs

/-! ## Numerals -/

theorem isDigit_iff : isDigit c = true ↔ 48 ≤ c.toNat ∧ c.toNat ≤ 57 := by
  unfold isDigit
  simp only [Bool.and_eq_true, decide_eq_true_eq, Char.le_def, UInt32.le_iff_toNat_le]
  rfl

theorem isPlain_of_isDigit (h : isDigit c = true) : IsPlain c := by
  obtain ⟨hlow, hhigh⟩ := isDigit_iff.mp h
  refine ⟨by omega, ?_⟩
  simp [Text.isBlank]
  omega

theorem isHexLetter_of_isDigit (h : isDigit c = true) : Signed.isHexLetter c = false := by
  obtain ⟨hlow, hhigh⟩ := isDigit_iff.mp h
  unfold Signed.isHexLetter
  simp only [Bool.and_eq_false_iff, decide_eq_false_iff_not, Char.le_def, UInt32.le_iff_toNat_le]
  left
  change ¬ 97 ≤ c.toNat
  omega

theorem isDigit_of_mem (n : Nat) : ∀ c ∈ decimalDigits n, isDigit c = true :=
  List.all_eq_true.mp (all_isDigit_decimalDigits n)

namespace Signed

theorem markedDigits?_of_notMem (hx : 'x' ∉ cs) (hX : 'X' ∉ cs) : Hex.markedDigits? cs = none := by
  unfold Hex.markedDigits?
  split
  · simp at hx
  · simp at hX
  · rfl

theorem magnitudeOf_of_numeral {n : Nat} (hread : numeral? cs = some n) (h : n < 1 <<< 256) : magnitudeOf cs = .ok n := by
  have hdigits : ∀ c ∈ cs, isDigit c = true := by
    unfold numeral? at hread
    split at hread
    · rename_i hall
      exact List.all_eq_true.mp hall.2
    · simp at hread
  -- Decimal digits have neither a marker nor a letter that would make them hexadecimal.
  have hx : 'x' ∉ cs := fun hmem => absurd (hdigits 'x' hmem) (by decide)
  have hX : 'X' ∉ cs := fun hmem => absurd (hdigits 'X' hmem) (by decide)
  have hletters : cs.any isHexLetter = false := by
    rw [List.any_eq_false]
    intro c hc
    simp [isHexLetter_of_isDigit (hdigits c hc)]
  rw [magnitudeOf, markedDigits?_of_notMem hx hX]
  simp only [hletters]
  unfold decimalMagnitude
  simp only [hread, if_pos h]
  rfl

theorem splitSign_decimalDigits (n : Nat) : splitSign (decimalDigits n) = (false, decimalDigits n) := by
  have hdigits := isDigit_of_mem n
  unfold splitSign
  split
  · rename_i heq
    simp [heq, isDigit] at hdigits
  · rfl

@[simp] theorem ofLiteral_decimal (w : Word) : ofLiteral (decimal w.toNat) = .ok (of w false) := by
  have hplain : ∀ c ∈ decimalDigits w.toNat, IsPlain c :=
    fun c hc => isPlain_of_isDigit (isDigit_of_mem w.toNat c hc)
  unfold ofLiteral decimal
  rw [String.toList_ofList, trim_of_plain hplain, splitSign_decimalDigits]
  simp only [magnitudeOf_of_numeral (numeral?_decimalDigits _) w.isLt, BitVec.ofNat_toNat, BitVec.setWidth_eq]

@[simp] theorem ofLiteral_text (v : Signed) : ofLiteral v.text = .ok v := by
  unfold text
  cases hneg : v.negative with
  | false =>
    rw [if_neg (by simp), ofLiteral_decimal, ← hneg, of_parts]
  | true =>
    have htext : ("-" ++ decimal v.magnitude.toNat).toList = '-' :: decimalDigits v.magnitude.toNat := by
      simp [decimal]
    have hplain : ∀ c ∈ '-' :: decimalDigits v.magnitude.toNat, IsPlain c := by
      rw [List.forall_mem_cons]
      exact ⟨by decide, fun c hc => isPlain_of_isDigit (isDigit_of_mem _ c hc)⟩
    unfold ofLiteral
    rw [if_pos rfl, htext, trim_of_plain hplain, splitSign]
    simp only [magnitudeOf_of_numeral (numeral?_decimalDigits _) v.magnitude.isLt, BitVec.ofNat_toNat, BitVec.setWidth_eq]
    rw [← hneg, of_parts]

end Signed

end Calldata
