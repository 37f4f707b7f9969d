import Calldata.Proofs.Integers
import Calldata.Proofs.Literals

/-!
# The grammar of integer literals

A text is read as an integer when it spells that integer, and also when a second marker stands in
front of the digits. Behind two markers there may be no digit at all. All other texts are refused as
bad literals.
-/

namespace Calldata

variable {cs digits : List Char} {bs ds : Bytes} {c : Char} {position m n : Nat}

/-! ## Bytes as digits -/

theorem digit_ok_iff {b : UInt8} {d : Nat} : Hex.digit position b = .ok d ↔ Hex.digit? b = some d := by
  unfold Hex.digit
  cases Hex.digit? b <;> simp

theorem digits_of_pairs (heven : ds.length % 2 = 0) (h : Hex.pairs position ds = .ok bs) :
    ∀ b ∈ ds, (Hex.digit? b).isSome = true := by
  induction ds using List.twoStepInduction generalizing position bs with
  | nil => simp
  | singleton b => simp at heven
  | cons_cons high low rest ih _ =>
    rw [List.length_cons, List.length_cons] at heven
    unfold Hex.pairs at h
    obtain ⟨x, hx, h⟩ := bind_ok_iff.mp h
    obtain ⟨y, hy, h⟩ := bind_ok_iff.mp h
    obtain ⟨bytes, hbytes, -⟩ := bind_ok_iff.mp h
    rw [digit_ok_iff] at hx hy
    simp only [List.forall_mem_cons, hx, hy, Option.isSome_some, true_and]
    exact ih (by omega) hbytes

theorem digits_of_decode (h : Hex.decode ds = .ok bs) : ∀ b ∈ ds, (Hex.digit? b).isSome = true := by
  unfold Hex.decode at h
  split at h
  · simp at h
  · exact digits_of_pairs (by omega) h

theorem hexDigit_of_byte {b : UInt8} (h : (Hex.digit? b).isSome = true) :
    IsHexDigit (Char.ofNat b.toNat) ∧ asciiByte (Char.ofNat b.toNat) = b := by
  -- There are few bytes, so each can be looked up.
  have hall : ∀ n < 256, (Hex.digit? (UInt8.ofNat n)).isSome = true →
      IsHexDigit (Char.ofNat n) ∧ asciiByte (Char.ofNat n) = UInt8.ofNat n := by decide +kernel
  have hb := hall b.toNat b.toNat_lt
  rw [UInt8.ofNat_toNat] at hb
  exact hb h

theorem exists_hexDigits (h : ∀ b ∈ ds, (Hex.digit? b).isSome = true) :
    ∃ digits : List Char, (∀ c ∈ digits, IsHexDigit c) ∧ digits.map asciiByte = ds := by
  refine ⟨ds.map fun b => Char.ofNat b.toNat, ?_, ?_⟩
  · intro c hc
    obtain ⟨b, hb, rfl⟩ := List.mem_map.mp hc
    exact (hexDigit_of_byte (h b hb)).1
  · rw [List.map_map]
    conv => rhs; rw [← List.map_id ds]
    apply List.map_congr_left
    intro b hb
    exact (hexDigit_of_byte (h b hb)).2

theorem eq_of_utf8_plain (hplain : ∀ c ∈ digits, IsPlain c)
    (h : Text.utf8 (String.ofList cs) = digits.map asciiByte) : cs = digits := by
  rw [← utf8_of_plain hplain] at h
  have hlist := congrArg String.toList (Text.utf8_injective h)
  rwa [String.toList_ofList, String.toList_ofList] at hlist

theorem unmarked_cases (bs : Bytes) : bs = Hex.unmarked bs ∨ bs = 0x30 :: 0x78 :: Hex.unmarked bs := by
  unfold Hex.unmarked
  split
  · exact .inr rfl
  · exact .inl rfl

theorem isPlain_cons_marker (h : ∀ c ∈ digits, IsPlain c) : ∀ c ∈ '0' :: 'x' :: digits, IsPlain c := by
  simp only [List.forall_mem_cons]
  exact ⟨by decide, by decide, h⟩

theorem eq_of_unmarked (hplain : ∀ c ∈ digits, IsPlain c)
    (h : Hex.unmarked (Text.utf8 (String.ofList cs)) = digits.map asciiByte) :
    cs = digits ∨ cs = '0' :: 'x' :: digits := by
  rcases unmarked_cases (Text.utf8 (String.ofList cs)) with hbytes | hbytes
  · rw [h] at hbytes
    exact .inl (eq_of_utf8_plain hplain hbytes)
  · rw [h] at hbytes
    exact .inr (eq_of_utf8_plain (isPlain_cons_marker hplain) hbytes)

theorem HexNumeral.lt (h : HexNumeral cs n) : n < 16 ^ cs.length := by
  induction h with
  | nil => decide
  | @digit cs c n d front hd ih =>
    have hdigit : IsHexDigit c := by rw [IsHexDigit, hd, Option.isSome_some]
    have hvalue := hdigit.value_lt
    rw [hd, Option.getD_some] at hvalue
    rw [List.length_append, List.length_singleton, Nat.pow_succ]
    omega

theorem HexNumeral.lt_word (h : HexNumeral cs n) (hlen : cs.length ≤ 64) : n < 2 ^ 256 := by
  have hpow : 16 ^ cs.length ≤ 16 ^ 64 := Nat.pow_le_pow_right (by decide) hlen
  exact Nat.lt_of_lt_of_le h.lt hpow

namespace Signed

/-! ## Magnitudes -/

theorem digits_of_hexMagnitude (h : hexMagnitude cs = .ok n) : ∃ digits : List Char,
    (∀ c ∈ digits, IsHexDigit c) ∧ digits.length ≤ 64 ∧
      Hex.unmarked (Text.utf8 (String.ofList cs)) = digits.map asciiByte := by
  unfold hexMagnitude at h
  simp only at h
  split at h
  · simp at h
  rename_i hlen
  split at h
  · rename_i bs hbs
    have hdigits : ∀ b ∈ Hex.unmarked (Text.utf8 (String.ofList cs)), (Hex.digit? b).isSome = true := by
      intro b hb
      apply digits_of_decode hbs
      split
      · exact List.mem_cons_of_mem _ hb
      · exact hb
    obtain ⟨digits, hhex, heq⟩ := exists_hexDigits hdigits
    rw [← heq, List.length_map] at hlen
    exact ⟨digits, hhex, Nat.le_of_not_lt hlen, heq.symm⟩
  · simp at h

theorem hexMagnitude_ok_iff : hexMagnitude cs = .ok n ↔
    ∃ digits, (cs = digits ∨ cs = '0' :: 'x' :: digits) ∧ HexNumeral digits n ∧ digits.length ≤ 64 := by
  constructor
  · intro h
    obtain ⟨digits, hhex, hlen, hbytes⟩ := digits_of_hexMagnitude h
    have hspelled : HexNumeral digits (hexValueFrom 0 digits) := hexNumeral_iff.mpr ⟨hhex, rfl⟩
    have hread := hexMagnitude_of_unmarked hspelled hlen hbytes
    rw [h] at hread
    obtain rfl := Except.ok.inj hread
    exact ⟨digits, eq_of_unmarked (fun c hc => (hhex c hc).isPlain) hbytes, hspelled, hlen⟩
  · rintro ⟨digits, rfl | rfl, hspelled, hlen⟩
    · exact hexMagnitude_of_numeral hspelled hlen
    · have hplain : ∀ c ∈ digits, IsPlain c := fun c hc => (hspelled.plain c hc).1
      apply hexMagnitude_of_unmarked hspelled hlen
      rw [utf8_of_plain (isPlain_cons_marker hplain)]
      rfl

theorem decimalMagnitude_ok_iff : decimalMagnitude cs = .ok n ↔ cs ≠ [] ∧ Numeral cs n ∧ n < 2 ^ 256 := by
  rw [← and_assoc, ← numeral?_eq_some_iff]
  unfold decimalMagnitude
  cases numeral? cs with
  | none => simp
  | some k =>
    simp only [Nat.one_shiftLeft, Option.some.injEq]
    split
    · rename_i hk
      simp only [Except.ok.injEq]
      exact ⟨fun h => ⟨h, h ▸ hk⟩, And.left⟩
    · rename_i hk
      simp only [reduceCtorEq, false_iff]
      rintro ⟨rfl, hn⟩
      exact hk hn

/-- What the reader takes for the magnitude of an integer: its spellings, and hexadecimal digits
behind two markers, of which the second one is lowercase. -/
inductive Accepts : List Char → Nat → Prop where
  | spelled {cs : List Char} {m : Nat} (spelled : Spells cs m) : Accepts cs m
  | marked {marker digits : List Char} {m : Nat} (marks : marker = ['0', 'x'] ∨ marker = ['0', 'X'])
      (spelled : HexNumeral digits m) (short : digits.length ≤ 64) : Accepts (marker ++ (['0', 'x'] ++ digits)) m

theorem markedDigits?_eq_some_iff : Hex.markedDigits? cs = some digits ↔
    ∃ marker, (marker = ['0', 'x'] ∨ marker = ['0', 'X']) ∧ cs = marker ++ digits := by
  constructor
  · intro h
    unfold Hex.markedDigits? at h
    split at h
    · exact ⟨['0', 'x'], .inl rfl, by simpa using h⟩
    · exact ⟨['0', 'X'], .inr rfl, by simpa using h⟩
    · simp at h
  · rintro ⟨marker, rfl | rfl, rfl⟩
    · rfl
    · rfl

theorem accepts_of_magnitude (h : magnitudeOf cs = .ok m) : Accepts cs m ∧ m < 2 ^ 256 := by
  unfold magnitudeOf at h
  split at h
  · simp at h
  · rename_i hex hne hmarked
    obtain ⟨marker, hmarker, rfl⟩ := markedDigits?_eq_some_iff.mp hmarked
    obtain ⟨digits, rfl | rfl, hspelled, hlen⟩ := hexMagnitude_ok_iff.mp h
    · exact ⟨.spelled (.marked hmarker hspelled hne hlen), hspelled.lt_word hlen⟩
    · exact ⟨.marked hmarker hspelled hlen, hspelled.lt_word hlen⟩
  · rename_i hnone
    split at h
    · rename_i hletter
      obtain ⟨digits, rfl | rfl, hspelled, hlen⟩ := hexMagnitude_ok_iff.mp h
      · exact ⟨.spelled (.lettered hspelled hlen (List.any_eq_true.mp hletter)), hspelled.lt_word hlen⟩
      · simp [Hex.markedDigits?] at hnone
    · obtain ⟨hne, hspelled, hm⟩ := decimalMagnitude_ok_iff.mp h
      exact ⟨.spelled (.decimal hspelled hne), hm⟩

theorem magnitudeOf_ok_iff : magnitudeOf cs = .ok m ↔ Accepts cs m ∧ m < 2 ^ 256 := by
  refine ⟨accepts_of_magnitude, ?_⟩
  rintro ⟨hspelled | @⟨marker, digits, _, hmarker, hspelled, hlen⟩, hm⟩
  · exact magnitudeOf_of_spells hm hspelled
  · have hmarked : Hex.markedDigits? (marker ++ (['0', 'x'] ++ digits)) = some ('0' :: 'x' :: digits) :=
      markedDigits?_eq_some_iff.mpr ⟨marker, hmarker, rfl⟩
    unfold magnitudeOf
    rw [hmarked]
    exact hexMagnitude_ok_iff.mpr ⟨digits, .inr rfl, hspelled, hlen⟩

/-! ## Literals -/

theorem Accepts.plain (h : Accepts cs m) : ∀ c ∈ cs, IsPlain c ∧ c ≠ '-' := by
  cases h with
  | spelled spelled => exact spelled.plain
  | marked marks spelled short =>
    rw [List.forall_mem_append, List.forall_mem_append]
    exact ⟨plain_marker marks, plain_marker (.inl rfl), spelled.plain⟩

theorem eq_of_splitSign {negative : Bool} {rest : List Char} (h : splitSign cs = (negative, rest)) :
    cs = signChars negative ++ rest := by
  unfold splitSign at h
  split at h
  · obtain ⟨rfl, rfl⟩ := Prod.mk.inj h
    rfl
  · obtain ⟨rfl, rfl⟩ := Prod.mk.inj h
    rfl

/-- The text of a literal: a sign, and what `Magnitude` takes for the number behind it, with blanks
around both. -/
inductive Literal (Magnitude : List Char → Nat → Prop) : List Char → Int → Prop where
  | of {before cs after : List Char} {negative : Bool} {m : Nat} (hbefore : Blank before)
      (magnitude : Magnitude cs m) (small : m < 2 ^ 256) (hafter : Blank after) :
      Literal Magnitude (before ++ (signChars negative ++ cs) ++ after) (if negative then -(m : Int) else m)

theorem toInt_of_magnitude (negative : Bool) (hm : m < 2 ^ 256) :
    (Signed.of (BitVec.ofNat 256 m) negative).toInt = if negative then -(m : Int) else m := by
  have hmagnitude : (BitVec.ofNat 256 m).toNat = m := by rw [BitVec.toNat_ofNat, Nat.mod_eq_of_lt hm]
  unfold toInt
  rw [negative_of, magnitude_of, hmagnitude]
  cases negative with
  | false => rfl
  | true =>
    by_cases hzero : BitVec.ofNat 256 m = 0
    · -- A negative zero is zero.
      rw [hzero] at hmagnitude
      simp [← hmagnitude]
    · rw [bne_iff_ne.mpr hzero, Bool.and_self]

theorem literal_of_ok {literal : String} {v : Signed} (h : ofLiteral literal = .ok v) :
    Literal Accepts literal.toList v.toInt := by
  unfold ofLiteral at h
  obtain ⟨before, after, hbefore, hafter, htext⟩ := Text.exists_trim literal.toList
  cases hsign : splitSign (Text.trim literal.toList) with
  | mk negative cs =>
    rw [hsign] at h
    simp only at h
    split at h
    · rename_i m hm
      obtain ⟨haccepts, hsmall⟩ := magnitudeOf_ok_iff.mp hm
      obtain rfl := Except.ok.inj h
      rw [htext, eq_of_splitSign hsign, toInt_of_magnitude negative hsmall]
      exact .of hbefore haccepts hsmall hafter
    · simp at h

theorem ofLiteral_of_literal {literal : String} {v : Signed} (h : Literal Accepts literal.toList v.toInt) :
    ofLiteral literal = .ok v := by
  generalize htext : literal.toList = text at h
  generalize hz : v.toInt = z at h
  cases h with
  | @of before cs after negative m hbefore haccepts hsmall hafter =>
    have hread : ofLiteral (String.ofList (before ++ (signChars negative ++ cs) ++ after)) =
        .ok (.of (BitVec.ofNat 256 m) negative) :=
      ofLiteral_of_magnitude haccepts.plain (magnitudeOf_ok_iff.mpr ⟨haccepts, hsmall⟩) hbefore hafter
    rw [← htext, String.ofList_toList] at hread
    rw [hread]
    congr 1
    apply toInt_inj
    rw [toInt_of_magnitude negative hsmall, hz]

/-- A text is read as an integer exactly when it is a literal of that integer: blanks, a sign, and a
spelling of its magnitude or hexadecimal digits behind two markers. Every other text is refused as a
bad literal. -/
theorem ofLiteral_grammar (literal : String) :
    (∀ v, ofLiteral literal = .ok v ↔ Literal Accepts literal.toList v.toInt) ∧
      ((∃ z, Literal Accepts literal.toList z) ∨
        ∃ cause, ofLiteral literal = .error (.badValue (.badInteger literal cause))) := by
  refine ⟨fun v => ⟨literal_of_ok, ofLiteral_of_literal⟩, ?_⟩
  cases h : ofLiteral literal with
  | ok v => exact .inl ⟨v.toInt, literal_of_ok h⟩
  | error e =>
    right
    unfold ofLiteral at h
    simp only at h
    split at h
    · simp at h
    · rename_i cause hcause
      exact ⟨cause, congrArg Except.error (Except.error.inj h).symm⟩

theorem Spells.count_le (h : Spells cs m) : cs.count 'x' ≤ 1 := by
  have hhex {digits : List Char} {n : Nat} (spelled : HexNumeral digits n) : digits.count 'x' = 0 := by
    apply List.count_eq_zero_of_not_mem
    intro hmem
    exact ((hexNumeral_iff.mp spelled).1 'x' hmem).ne_mark.2.1 rfl
  cases h with
  | decimal spelled written =>
    rw [List.count_eq_zero_of_not_mem (spelled.notMem (by decide))]
    exact Nat.zero_le 1
  | marked marks spelled written short =>
    rw [List.count_append, hhex spelled]
    rcases marks with rfl | rfl <;> decide
  | lettered spelled short letter =>
    rw [hhex spelled]
    exact Nat.zero_le 1

theorem Literal.count_le {text : List Char} {z : Int} (h : Literal Spells text z) : text.count 'x' ≤ 1 := by
  have hblank {cs : List Char} (h : Blank cs) : cs.count 'x' = 0 := by
    apply List.count_eq_zero_of_not_mem
    intro hmem
    exact absurd (h 'x' hmem) (by decide)
  cases h with
  | @of before cs after negative m hbefore spelled small hafter =>
    have hsign : (signChars negative).count 'x' = 0 := by cases negative <;> decide
    rw [List.count_append, List.count_append, List.count_append, hblank hbefore, hblank hafter, hsign]
    simpa using spelled.count_le

/-- Two markers without a digit are read as zero, although no integer is spelled so. -/
theorem ofLiteral_second_marker :
    ofLiteral "0x0x" = .ok zero ∧ ∀ z, ¬ Literal Spells "0x0x".toList z := by
  refine ⟨eq_ok_of_toOption (by decide +kernel), fun z h => ?_⟩
  exact absurd h.count_le (by decide)

end Signed

end Calldata
