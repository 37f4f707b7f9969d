import Calldata.Proofs.TypeGrammar

/-!
# How integers are spelled

An integer has many spellings: decimal digits, hexadecimal digits of either case behind a marker,
and without one if a lowercase letter tells them from decimal ones. Zeros may lead, and blanks may
stand around the literal. All spellings are read as the same integer.
-/

namespace Calldata

variable {cs digits before after : List Char} {c : Char} {m n d acc position : Nat} {negative : Bool}

/-! ## Hexadecimal numerals -/

/-- Hexadecimal digits of either case and the number that they spell. Zeros may lead. -/
inductive HexNumeral : List Char → Nat → Prop where
  | nil : HexNumeral [] 0
  | digit {cs : List Char} {c : Char} {n d : Nat} (front : HexNumeral cs n)
      (hd : hexDigitValue? c = some d) : HexNumeral (cs ++ [c]) (16 * n + d)

def IsHexDigit (c : Char) : Prop := (hexDigitValue? c).isSome = true

instance : DecidablePred IsHexDigit := fun c => by unfold IsHexDigit; infer_instance

/-- The number that hexadecimal digits spell behind others that spell `acc`. -/
def hexValueFrom (acc : Nat) (cs : List Char) : Nat :=
  cs.foldl (fun n c => 16 * n + (hexDigitValue? c).getD 0) acc

@[simp] theorem hexValueFrom_nil : hexValueFrom acc [] = acc := rfl

@[simp] theorem hexValueFrom_cons :
    hexValueFrom acc (c :: cs) = hexValueFrom (16 * acc + (hexDigitValue? c).getD 0) cs := rfl

theorem hexValueFrom_append_singleton (cs : List Char) (c : Char) :
    hexValueFrom acc (cs ++ [c]) = 16 * hexValueFrom acc cs + (hexDigitValue? c).getD 0 := by
  simp [hexValueFrom]

theorem hexNumeral_iff : HexNumeral cs n ↔ (∀ c ∈ cs, IsHexDigit c) ∧ hexValueFrom 0 cs = n := by
  constructor
  · intro h
    induction h with
    | nil => exact ⟨by simp, rfl⟩
    | @digit cs c n d front hd ih =>
      have hdigit : IsHexDigit c := by rw [IsHexDigit, hd, Option.isSome_some]
      rw [hexValueFrom_append_singleton, ih.2, hd, Option.getD_some]
      refine ⟨?_, rfl⟩
      simpa [or_imp, forall_and, hdigit] using ih.1
  · rintro ⟨hdigits, rfl⟩
    induction cs using List.reverseRecOn with
    | nil => exact .nil
    | append_singleton cs c ih =>
      obtain ⟨hfront, hdigit⟩ := List.forall_mem_append.mp hdigits
      obtain ⟨d, hd⟩ := Option.isSome_iff_exists.mp (hdigit c (List.mem_singleton_self c))
      rw [hexValueFrom_append_singleton, hd, Option.getD_some]
      exact .digit (ih hfront) hd

/-! ## Digits as bytes -/

theorem IsHexDigit.ascii (h : IsHexDigit c) : c.toNat < 128 := by
  by_contra hge
  have habove (d : Char) (hd : d.toNat < 128) : ¬ c ≤ d := by
    rw [Char.le_def, UInt32.le_iff_toNat_le]
    change ¬ c.toNat ≤ d.toNat
    omega
  simp [IsHexDigit, hexDigitValue?, habove '9' (by decide), habove 'f' (by decide), habove 'F' (by decide)] at h

theorem IsHexDigit.induction (P : Char → Prop) (hall : ∀ n < 128, IsHexDigit (Char.ofNat n) → P (Char.ofNat n))
    (h : IsHexDigit c) : P c := by
  have hchar := hall c.toNat h.ascii
  rw [Char.ofNat_toNat] at hchar
  exact hchar h

theorem IsHexDigit.isPlain : IsHexDigit c → IsPlain c := induction IsPlain (by decide +kernel)

theorem IsHexDigit.ne_mark : IsHexDigit c → c ≠ '-' ∧ c ≠ 'x' ∧ c ≠ 'X' ∧ asciiByte c ≠ 0x78 :=
  induction (fun c => c ≠ '-' ∧ c ≠ 'x' ∧ c ≠ 'X' ∧ asciiByte c ≠ 0x78) (by decide +kernel)

theorem HexNumeral.plain (h : HexNumeral cs n) : ∀ c ∈ cs, IsPlain c ∧ c ≠ '-' := by
  intro c hc
  have hdigit := (hexNumeral_iff.mp h).1 c hc
  exact ⟨hdigit.isPlain, hdigit.ne_mark.1⟩

theorem IsHexDigit.digit?_asciiByte : IsHexDigit c → Hex.digit? (asciiByte c) = hexDigitValue? c :=
  induction (fun c => Hex.digit? (asciiByte c) = hexDigitValue? c) (by decide +kernel)

theorem IsHexDigit.value_lt : IsHexDigit c → (hexDigitValue? c).getD 0 < 16 :=
  induction (fun c => (hexDigitValue? c).getD 0 < 16) (by decide +kernel)

theorem IsHexDigit.digit_asciiByte (h : IsHexDigit c) :
    Hex.digit position (asciiByte c) = .ok ((hexDigitValue? c).getD 0) := by
  obtain ⟨d, hd⟩ := Option.isSome_iff_exists.mp h
  rw [Hex.digit, h.digit?_asciiByte, hd]
  rfl

theorem pairs_of_digits (h : ∀ c ∈ cs, IsHexDigit c) (heven : cs.length % 2 = 0) :
    ∃ bs, Hex.pairs position (cs.map asciiByte) = .ok bs ∧
      ∀ acc, bs.foldl (fun n b => 256 * n + b.toNat) acc = hexValueFrom acc cs := by
  induction cs using List.twoStepInduction generalizing position with
  | nil => exact ⟨[], rfl, fun acc => rfl⟩
  | singleton c => simp at heven
  | cons_cons a b cs ih _ =>
    simp only [List.forall_mem_cons] at h
    obtain ⟨ha, hb, hcs⟩ := h
    rw [List.length_cons, List.length_cons] at heven
    obtain ⟨bs, hbs, hvalue⟩ := @ih (position + 2) hcs (by omega)
    have hhigh := ha.value_lt
    have hlow := hb.value_lt
    refine ⟨UInt8.ofNat (16 * (hexDigitValue? a).getD 0 + (hexDigitValue? b).getD 0) :: bs, ?_, fun acc => ?_⟩
    · rw [List.map_cons, List.map_cons, Hex.pairs, ha.digit_asciiByte, hb.digit_asciiByte, hbs]
      rfl
    · rw [List.foldl_cons, hvalue, hexValueFrom_cons, hexValueFrom_cons, UInt8.toNat_ofNat',
        Nat.mod_eq_of_lt (by omega)]
      congr 1
      omega

theorem decode_of_digits (h : ∀ c ∈ cs, IsHexDigit c) (heven : cs.length % 2 = 0) :
    ∃ bs, Hex.decode (cs.map asciiByte) = .ok bs ∧ ofBigEndian bs = hexValueFrom 0 cs := by
  obtain ⟨bs, hbs, hvalue⟩ := pairs_of_digits h heven
  refine ⟨bs, ?_, hvalue 0⟩
  rw [Hex.decode, List.length_map, if_neg (by omega), hbs]

theorem unmarked_digits (h : ∀ c ∈ cs, IsHexDigit c) : Hex.unmarked (cs.map asciiByte) = cs.map asciiByte := by
  unfold Hex.unmarked
  split
  · rename_i rest heq
    obtain ⟨a, l, rfl, -, hl⟩ := List.map_eq_cons_iff.mp heq
    obtain ⟨b, l, rfl, hb, -⟩ := List.map_eq_cons_iff.mp hl
    exact absurd hb (h b (by simp)).ne_mark.2.2.2
  · rfl

namespace Signed

theorem hexMagnitude_of_unmarked (h : HexNumeral digits n) (hlen : digits.length ≤ maxHexDigits)
    (hbytes : Hex.unmarked (Text.utf8 (String.ofList cs)) = digits.map asciiByte) : hexMagnitude cs = .ok n := by
  obtain ⟨hdigits, hvalue⟩ := hexNumeral_iff.mp h
  -- An odd count of digits is read like the even one with a zero in front.
  have hread : ∃ bs, Hex.decode (if digits.length % 2 = 1 then 0x30 :: digits.map asciiByte
      else digits.map asciiByte) = .ok bs ∧ ofBigEndian bs = n := by
    split
    · rename_i hodd
      have hzero : IsHexDigit '0' := by decide
      have hpadded : ∀ c ∈ '0' :: digits, IsHexDigit c := List.forall_mem_cons.mpr ⟨hzero, hdigits⟩
      rw [← hvalue]
      exact decode_of_digits hpadded (by rw [List.length_cons]; omega)
    · rw [← hvalue]
      exact decode_of_digits hdigits (by omega)
  obtain ⟨bs, hbs, hn⟩ := hread
  unfold hexMagnitude
  simp only [hbytes, List.length_map, if_neg (Nat.not_lt.mpr hlen), hbs, hn]

theorem hexMagnitude_of_numeral (h : HexNumeral cs n) (hlen : cs.length ≤ maxHexDigits) :
    hexMagnitude cs = .ok n := by
  have hdigits := (hexNumeral_iff.mp h).1
  apply hexMagnitude_of_unmarked h hlen
  rw [utf8_of_plain fun c hc => (hdigits c hc).isPlain, unmarked_digits hdigits]

/-! ## Literals -/

/-- The texts that spell the magnitude of an integer. -/
inductive Spells : List Char → Nat → Prop where
  | decimal {digits : List Char} {m : Nat} (spelled : Numeral digits m) (written : digits ≠ []) : Spells digits m
  | marked {marker digits : List Char} {m : Nat} (marks : marker = ['0', 'x'] ∨ marker = ['0', 'X'])
      (spelled : HexNumeral digits m) (written : digits ≠ []) (short : digits.length ≤ 64) :
      Spells (marker ++ digits) m
  | lettered {digits : List Char} {m : Nat} (spelled : HexNumeral digits m) (short : digits.length ≤ 64)
      (letter : ∃ c ∈ digits, isHexLetter c = true) : Spells digits m

theorem magnitudeOf_of_spells (hm : m < 2 ^ 256) (h : Spells cs m) : magnitudeOf cs = .ok m := by
  cases h with
  | decimal spelled written =>
    exact magnitudeOf_of_numeral (numeral?_eq_some_iff.mpr ⟨written, spelled⟩) (Nat.one_shiftLeft 256 ▸ hm)
  | @marked marker digits m marks spelled written short =>
    have hmarked : Hex.markedDigits? (marker ++ digits) = some digits := by
      rcases marks with rfl | rfl <;> rfl
    rw [magnitudeOf, hmarked]
    cases digits with
    | nil => exact absurd rfl written
    | cons c digits => exact hexMagnitude_of_numeral spelled short
  | lettered spelled short letter =>
    have hdigits := (hexNumeral_iff.mp spelled).1
    have hx : 'x' ∉ cs := fun hmem => (hdigits 'x' hmem).ne_mark.2.1 rfl
    have hX : 'X' ∉ cs := fun hmem => (hdigits 'X' hmem).ne_mark.2.2.1 rfl
    have hletter : cs.any isHexLetter = true := List.any_eq_true.mpr letter
    rw [magnitudeOf, markedDigits?_of_notMem hx hX]
    simp only [hletter, if_true]
    exact hexMagnitude_of_numeral spelled short

theorem plain_marker (marks : cs = ['0', 'x'] ∨ cs = ['0', 'X']) : ∀ c ∈ cs, IsPlain c ∧ c ≠ '-' := by
  intro c hc
  rcases marks with rfl | rfl <;> rcases List.mem_pair.mp hc with rfl | rfl <;> decide

theorem Spells.plain (h : Spells cs m) : ∀ c ∈ cs, IsPlain c ∧ c ≠ '-' := by
  cases h with
  | decimal spelled written =>
    intro c hc
    have hdigit := List.all_eq_true.mp (numeral_iff.mp spelled).1 c hc
    refine ⟨isPlain_of_isDigit hdigit, ?_⟩
    rintro rfl
    exact spelled.notMem (by decide) hc
  | marked marks spelled written short =>
    rw [List.forall_mem_append]
    exact ⟨plain_marker marks, spelled.plain⟩
  | lettered spelled short letter => exact spelled.plain

def signChars (negative : Bool) : List Char := if negative then ['-'] else []

theorem splitSign_of_notMem (h : '-' ∉ cs) : splitSign (signChars negative ++ cs) = (negative, cs) := by
  cases negative with
  | true => rfl
  | false =>
    rw [signChars, if_neg (by simp), List.nil_append]
    unfold splitSign
    split
    · simp at h
    · rfl

theorem ofLiteral_of_magnitude (hplain : ∀ c ∈ cs, IsPlain c ∧ c ≠ '-') (hmagnitude : magnitudeOf cs = .ok m)
    (hbefore : Blank before) (hafter : Blank after) :
    ofLiteral (String.ofList (before ++ (signChars negative ++ cs) ++ after)) =
      .ok (of (BitVec.ofNat 256 m) negative) := by
  have hsigned : ∀ c ∈ signChars negative ++ cs, IsPlain c := by
    rw [List.forall_mem_append]
    refine ⟨?_, fun c hc => (hplain c hc).1⟩
    intro c hc
    obtain rfl : c = '-' := by
      cases negative <;> simp_all [signChars]
    decide
  have htrim : Text.trim (before ++ (signChars negative ++ cs) ++ after) = signChars negative ++ cs := by
    rw [Text.trim_append_right hafter, Text.trim_append_left hbefore, trim_of_plain hsigned]
  have hsign : '-' ∉ cs := fun hmem => (hplain '-' hmem).2 rfl
  unfold ofLiteral
  rw [String.toList_ofList, htrim, splitSign_of_notMem hsign]
  simp only [hmagnitude]

theorem ofLiteral_of_spells (hm : m < 2 ^ 256) (h : Spells cs m) (hbefore : Blank before) (hafter : Blank after) :
    ofLiteral (String.ofList (before ++ (signChars negative ++ cs) ++ after)) =
      .ok (of (BitVec.ofNat 256 m) negative) :=
  ofLiteral_of_magnitude h.plain (magnitudeOf_of_spells hm h) hbefore hafter

/-- Every spelling of an integer whose magnitude fits in a word is read as that integer, and zero is
never negative. In particular what is written is read back. -/
theorem ofLiteral_spelled :
    (∀ (m : Nat) (negative : Bool) (digits before after : List Char), m < 2 ^ 256 → Spells digits m →
      Blank before → Blank after →
      ∃ v, ofLiteral (String.ofList (before ++ (signChars negative ++ digits) ++ after)) = .ok v ∧
        v.magnitude.toNat = m ∧ v.negative = (negative && m != 0)) ∧
    ∀ v, ofLiteral v.text = .ok v := by
  refine ⟨fun m negative digits before after hm h hbefore hafter => ?_, ofLiteral_text⟩
  have hmagnitude : (BitVec.ofNat 256 m).toNat = m := by rw [BitVec.toNat_ofNat, Nat.mod_eq_of_lt hm]
  refine ⟨of (BitVec.ofNat 256 m) negative, ofLiteral_of_spells hm h hbefore hafter, hmagnitude, ?_⟩
  have hzero : BitVec.ofNat 256 m = 0#256 ↔ m = 0 := by rw [← BitVec.toNat_inj, hmagnitude, BitVec.toNat_zero]
  rw [negative_of, Bool.eq_iff_iff]
  simp [hzero]

theorem ofLiteral_spelled_odd :
    let digits := ['0', 'X', '0', 'f', 'F']
    (255 < 2 ^ 256 ∧ Spells digits 255 ∧ Blank ['\u2003', '\n'] ∧ Blank ['\u00a0']) ∧
    ∃ v, ofLiteral (String.ofList (['\u2003', '\n'] ++ (['-'] ++ digits) ++ ['\u00a0'])) = .ok v ∧
      v.magnitude.toNat = 255 ∧ v.negative = true := by
  intro digits
  have hspelled : HexNumeral ['0', 'f', 'F'] 255 := hexNumeral_iff.mpr
    ⟨List.all_eq_true.mp (by decide), by decide⟩
  have hdigits : Spells digits 255 := .marked (.inr (Eq.refl ['0', 'X'])) hspelled (by decide) (by decide)
  have hbefore : Blank ['\u2003', '\n'] := List.all_eq_true.mp (by decide)
  have hafter : Blank ['\u00a0'] := List.all_eq_true.mp (by decide)
  exact ⟨⟨by decide, hdigits, hbefore, hafter⟩,
    ofLiteral_spelled.1 255 true digits ['\u2003', '\n'] ['\u00a0'] (by decide) hdigits hbefore hafter⟩

end Signed

end Calldata
