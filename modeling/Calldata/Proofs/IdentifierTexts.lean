import Calldata.Identifier.Json
import Calldata.Proofs.JsonStrings
import Calldata.Proofs.LiteralGrammar
import Calldata.Proofs.ShownValues

/-!
# Texts of identifiers

A text is one of an identifier when it has two hexadecimal digits for each byte, behind one marker or
none. All other texts are refused, as no hexadecimal text or as one of another length. Of the texts of
an identifier one is written, the marked one in lowercase, and JSON keeps it.
-/

namespace Calldata

variable {k l : IdKind} {cs : List Char} {bs ds : Bytes} {b : UInt8} {c : Char} {s t : String} {position got : Nat}

/-! ## Texts as bytes -/

theorem utf8_cons (c : Char) (cs : List Char) :
    Text.utf8 (String.ofList (c :: cs)) = Text.utf8 (String.ofList [c]) ++ Text.utf8 (String.ofList cs) := by
  unfold Text.utf8
  rw [String.toByteArray_ofList, String.toByteArray_ofList, String.toByteArray_ofList, List.utf8Encode_cons,
    ByteArray.toList_data_append]

theorem utf8_cons_of_plain (hc : IsPlain c) (cs : List Char) :
    Text.utf8 (String.ofList (c :: cs)) = asciiByte c :: Text.utf8 (String.ofList cs) := by
  rw [utf8_cons, utf8_of_plain (by simpa using hc)]
  rfl

theorem cons_of_utf8 (hc : IsPlain c) (h : Text.utf8 (String.ofList cs) = asciiByte c :: ds) :
    ∃ rest, cs = c :: rest := by
  cases cs with
  | nil => simp [Text.utf8] at h
  | cons d rest =>
    have hfirst : Text.utf8 (String.ofList [c]) = [asciiByte c] := utf8_of_plain (by simpa using hc)
    have hsplit : asciiByte c :: ds = Text.utf8 (String.ofList [c]) ++ ds := by
      rw [hfirst]
      rfl
    rw [utf8_cons, hsplit] at h
    unfold Text.utf8 at h
    simp only [String.toByteArray_ofList] at h
    have hbytes : [d].utf8Encode ++ rest.utf8Encode = [c].utf8Encode ++ ⟨ds.toArray⟩ := by
      apply ByteArray.ext
      apply Array.toList_inj.mp
      simpa using h
    -- Both sides are read as their first character.
    have hdecode := congrArg (fun bytes : ByteArray => bytes.utf8DecodeChar? 0) hbytes
    simp only [List.utf8DecodeChar?_utf8Encode_singleton_append] at hdecode
    exact ⟨rest, by rw [Option.some.inj hdecode]⟩

theorem asciiByte_ofNat (b : UInt8) : asciiByte (Char.ofNat b.toNat) = b := by
  have hlt := b.toNat_lt
  have hvalid : b.toNat.isValidChar := .inl (by omega)
  have hchar : Char.ofNat b.toNat = Char.ofNatAux b.toNat hvalid := dif_pos hvalid
  rw [asciiByte, hchar]
  exact UInt8.ofNat_toNat

namespace Hex

/-! ## Digits and bytes -/

/-- What stands behind one marker, and the whole text where there is none. -/
def unmarkedChars : List Char → List Char
  | '0' :: 'x' :: rest => rest
  | cs => cs

/-- Two digits of either case spell a byte, the higher one stands in front. -/
inductive SpellsBytes : List Char → Bytes → Prop where
  | nil : SpellsBytes [] []
  | pair {high low : Char} {h l : Nat} {cs : List Char} {bs : Bytes} (hh : hexDigitValue? high = some h)
      (hl : hexDigitValue? low = some l) (rest : SpellsBytes cs bs) :
      SpellsBytes (high :: low :: cs) (UInt8.ofNat (16 * h + l) :: bs)

theorem isHexDigit_of_value {d : Nat} (h : hexDigitValue? c = some d) : IsHexDigit c := by
  rw [IsHexDigit, h, Option.isSome_some]

theorem SpellsBytes.isHexDigit (h : SpellsBytes cs bs) : ∀ c ∈ cs, IsHexDigit c := by
  induction h with
  | nil => simp
  | pair hh hl _ ih =>
    simp only [List.forall_mem_cons]
    exact ⟨isHexDigit_of_value hh, isHexDigit_of_value hl, ih⟩

theorem SpellsBytes.length (h : SpellsBytes cs bs) : cs.length = 2 * bs.length := by
  induction h with
  | nil => rfl
  | pair _ _ _ ih =>
    simp only [List.length_cons, ih]
    omega

theorem exists_spellsBytes (h : ∀ c ∈ cs, IsHexDigit c) (heven : cs.length % 2 = 0) : ∃ bs, SpellsBytes cs bs := by
  induction cs using List.twoStepInduction with
  | nil => exact ⟨[], .nil⟩
  | singleton c => simp at heven
  | cons_cons high low cs ih _ =>
    simp only [List.forall_mem_cons] at h
    obtain ⟨hhigh, hlow, hcs⟩ := h
    rw [List.length_cons, List.length_cons] at heven
    obtain ⟨bs, hbs⟩ := ih hcs (by omega)
    obtain ⟨x, hx⟩ := Option.isSome_iff_exists.mp hhigh
    obtain ⟨y, hy⟩ := Option.isSome_iff_exists.mp hlow
    exact ⟨_, .pair hx hy hbs⟩

theorem pairs_of_spellsBytes (h : SpellsBytes cs bs) : pairs position (cs.map asciiByte) = .ok bs := by
  induction h generalizing position with
  | nil => rfl
  | pair hh hl _ ih =>
    simp only [List.map_cons]
    rw [pairs, (isHexDigit_of_value hh).digit_asciiByte, (isHexDigit_of_value hl).digit_asciiByte, hh, hl, ih]
    rfl

theorem decode_of_spellsBytes (h : SpellsBytes cs bs) : decode (cs.map asciiByte) = .ok bs := by
  have hlen := h.length
  rw [decode, List.length_map, if_neg (by omega), pairs_of_spellsBytes h]

theorem length_of_decode (h : decode ds = .ok bs) : ds.length % 2 = 0 := by
  unfold decode at h
  split at h
  · simp at h
  · omega

theorem decode_ok_iff : decode (Text.utf8 (String.ofList cs)) = .ok bs ↔ SpellsBytes cs bs := by
  constructor
  · intro h
    obtain ⟨digits, hdigits, hbytes⟩ := exists_hexDigits (digits_of_decode h)
    obtain rfl : cs = digits := eq_of_utf8_plain (fun c hc => (hdigits c hc).isPlain) hbytes.symm
    have heven := length_of_decode h
    rw [← hbytes, List.length_map] at heven
    obtain ⟨bytes, hspelled⟩ := exists_spellsBytes hdigits heven
    rw [← hbytes, decode_of_spellsBytes hspelled] at h
    rwa [← Except.ok.inj h]
  · intro h
    rw [utf8_of_plain fun c hc => (h.isHexDigit c hc).isPlain]
    exact decode_of_spellsBytes h

/-! ## Texts with a marker or without -/

theorem unmarkedChars_of_ne (h : ∀ rest, cs ≠ '0' :: 'x' :: rest) : unmarkedChars cs = cs := by
  unfold unmarkedChars
  split
  · exact absurd rfl (h _)
  · rfl

theorem unmarked_utf8 (cs : List Char) :
    unmarked (Text.utf8 (String.ofList cs)) = Text.utf8 (String.ofList (unmarkedChars cs)) := by
  have hzero : IsPlain '0' := by decide
  have hx : IsPlain 'x' := by decide
  by_cases hmarked : ∃ rest, cs = '0' :: 'x' :: rest
  · obtain ⟨rest, rfl⟩ := hmarked
    rw [utf8_cons_of_plain hzero, utf8_cons_of_plain hx]
    rfl
  · rw [unmarkedChars_of_ne fun rest h => hmarked ⟨rest, h⟩]
    rcases unmarked_cases (Text.utf8 (String.ofList cs)) with h | h
    · exact h.symm
    -- Bytes that begin with a marker come from a text that does.
    · obtain ⟨tail, rfl⟩ := cons_of_utf8 hzero h
      rw [utf8_cons_of_plain hzero] at h
      obtain ⟨rest, rfl⟩ := cons_of_utf8 hx (List.tail_eq_of_cons_eq h)
      exact absurd ⟨rest, rfl⟩ hmarked

theorem ofText_eq (s : String) : ofText s = decode (Text.utf8 (String.ofList (unmarkedChars s.toList))) := by
  have hbytes := unmarked_utf8 s.toList
  rw [String.ofList_toList] at hbytes
  rw [ofText, hbytes]

theorem ofText_ok_iff : ofText s = .ok bs ↔ SpellsBytes (unmarkedChars s.toList) bs := by
  rw [ofText_eq, decode_ok_iff]

theorem isSome_digit?_iff : (digit? b).isSome = true ↔ IsHexDigit (Char.ofNat b.toNat) := by
  refine ⟨fun h => (hexDigit_of_byte h).1, fun h => ?_⟩
  have hdigit := h.digit?_asciiByte
  rw [asciiByte_ofNat] at hdigit
  rwa [hdigit]

theorem exists_decode_iff :
    (∃ bs, decode ds = .ok bs) ↔ ds.length % 2 = 0 ∧ ∀ b ∈ ds, IsHexDigit (Char.ofNat b.toNat) := by
  constructor
  · rintro ⟨bs, h⟩
    exact ⟨length_of_decode h, fun b hb => isSome_digit?_iff.mp (digits_of_decode h b hb)⟩
  · rintro ⟨heven, hdigits⟩
    obtain ⟨digits, hhex, rfl⟩ := exists_hexDigits fun b hb => isSome_digit?_iff.mpr (hdigits b hb)
    rw [List.length_map] at heven
    obtain ⟨bs, hbs⟩ := exists_spellsBytes hhex heven
    exact ⟨bs, decode_of_spellsBytes hbs⟩

theorem decode_error_iff : (∃ cause, decode ds = .error cause) ↔
    ds.length % 2 = 1 ∨ ∃ b ∈ ds, ¬ IsHexDigit (Char.ofNat b.toNat) := by
  have hnot : (∃ cause, decode ds = .error cause) ↔ ¬ ∃ bs, decode ds = .ok bs := by
    cases decode ds <;> simp
  rw [hnot, exists_decode_iff, not_and_or]
  simp

/-! ## Written digits -/

theorem hexDigitChar_eq_toLower (h : IsHexDigit c) : hexDigitChar ((hexDigitValue? c).getD 0) = c.toLower :=
  h.induction (fun c => hexDigitChar ((hexDigitValue? c).getD 0) = c.toLower) (by decide +kernel)

theorem SpellsBytes.written (h : SpellsBytes cs bs) : bs.flatMap byteDigits = cs.map Char.toLower := by
  induction h with
  | nil => rfl
  | @pair high low x y cs bs hh hl _ ih =>
    have hhigh := hexDigitChar_eq_toLower (isHexDigit_of_value hh)
    have hlow := hexDigitChar_eq_toLower (isHexDigit_of_value hl)
    have hx := (isHexDigit_of_value hh).value_lt
    have hy := (isHexDigit_of_value hl).value_lt
    rw [hh, Option.getD_some] at hhigh hx
    rw [hl, Option.getD_some] at hlow hy
    have hbyte : (UInt8.ofNat (16 * x + y)).toNat = 16 * x + y := by
      rw [UInt8.toNat_ofNat', Nat.mod_eq_of_lt (by omega)]
    have hdiv : (16 * x + y) / 16 = x := by omega
    have hmod : (16 * x + y) % 16 = y := by omega
    rw [List.flatMap_cons, ih, byteDigits, hbyte, hdiv, hmod, hhigh, hlow]
    rfl

end Hex

namespace Identifier

open Hex (SpellsBytes unmarkedChars)

/-! ## Reading -/

theorem ofBytes_ok_iff {id : Identifier k} : ofBytes k bs = .ok id ↔ id.bytes = bs := by
  unfold ofBytes
  constructor
  · intro h
    split at h
    · rw [← Except.ok.inj h]
    · simp at h
  · rintro rfl
    exact dif_pos id.length_bytes

theorem ofText_ok_iff {id : Identifier k} : ofText k s = .ok id ↔ SpellsBytes (unmarkedChars s.toList) id.bytes := by
  rw [← Hex.ofText_ok_iff]
  unfold ofText
  cases Hex.ofText s with
  | error cause => simp
  | ok bs =>
    simp only [ofBytes_ok_iff, Except.ok.injEq]
    exact eq_comm

theorem ofText_badHex_iff :
    (∃ cause, ofText k s = .error (.badHex cause)) ↔ ∃ cause, Hex.ofText s = .error cause := by
  unfold ofText ofBytes
  cases Hex.ofText s with
  | error cause => simp
  | ok bs => by_cases h : bs.length = k.size <;> simp [h]

theorem ofBytes_badLength_iff : ofBytes k bs = .error (.badLength l got) ↔ l = k ∧ bs.length = got ∧ got ≠ k.size := by
  unfold ofBytes
  constructor
  · intro h
    split at h
    · simp at h
    · rename_i hlen
      obtain ⟨rfl, rfl⟩ := IdFault.badLength.inj (Except.error.inj h)
      exact ⟨rfl, rfl, hlen⟩
  · rintro ⟨rfl, rfl, hlen⟩
    exact dif_neg hlen

theorem ofText_badLength_iff : ofText k s = .error (.badLength l got) ↔
    l = k ∧ got ≠ k.size ∧ (unmarkedChars s.toList).length = 2 * got ∧
      ∀ c ∈ unmarkedChars s.toList, IsHexDigit c := by
  have hbytes : ofText k s = .error (.badLength l got) ↔
      ∃ bs, Hex.ofText s = .ok bs ∧ ofBytes k bs = .error (.badLength l got) := by
    unfold ofText
    cases Hex.ofText s <;> simp
  rw [hbytes]
  constructor
  · rintro ⟨bs, hbs, hfault⟩
    have hspelled := Hex.ofText_ok_iff.mp hbs
    obtain ⟨hl, hlen, hne⟩ := ofBytes_badLength_iff.mp hfault
    exact ⟨hl, hne, by rw [hspelled.length, hlen], hspelled.isHexDigit⟩
  · rintro ⟨hl, hne, hlen, hdigits⟩
    obtain ⟨bs, hspelled⟩ := Hex.exists_spellsBytes hdigits (by omega)
    have hbs := hspelled.length
    exact ⟨bs, Hex.ofText_ok_iff.mpr hspelled, ofBytes_badLength_iff.mpr ⟨hl, by omega, hne⟩⟩

theorem exists_ofText_iff : (∃ id, ofText k s = .ok id) ↔
    (unmarkedChars s.toList).length = 2 * k.size ∧ ∀ c ∈ unmarkedChars s.toList, IsHexDigit c := by
  constructor
  · rintro ⟨id, hid⟩
    have hspelled := ofText_ok_iff.mp hid
    exact ⟨by rw [hspelled.length, id.length_bytes], hspelled.isHexDigit⟩
  · rintro ⟨hlen, hdigits⟩
    obtain ⟨bs, hspelled⟩ := Hex.exists_spellsBytes hdigits (by omega)
    have hbs := hspelled.length
    exact ⟨⟨bs, by omega⟩, ofText_ok_iff.mpr hspelled⟩

/-! ## Writing -/

theorem text_of_ok {id : Identifier k} (h : ofText k s = .ok id) :
    id.text = "0x" ++ (String.ofList (unmarkedChars s.toList)).toLower := by
  apply String.toList_inj.mp
  have hlower : (String.ofList (unmarkedChars s.toList)).toLower.toList = (unmarkedChars s.toList).map Char.toLower := by
    change (String.map Char.toLower _).toList = _
    rw [String.toList_map, String.toList_ofList]
  rw [String.toList_append, hlower, ← (ofText_ok_iff.mp h).written]
  exact Hex.toList_marked id.bytes

theorem eq_text_iff {id : Identifier k} :
    t = id.text ↔ (∃ digits : String, t = "0x" ++ digits ∧ digits.toLower = digits) ∧ ofText k t = .ok id := by
  have hunmarked (digits : String) : String.ofList (unmarkedChars ("0x" ++ digits).toList) = digits := by
    rw [String.toList_append]
    exact String.ofList_toList
  constructor
  · rintro rfl
    have hmarked : id.text = "0x" ++ Hex.encode id.bytes := rfl
    have hwritten := text_of_ok (ofText_text id)
    rw [hmarked, hunmarked] at hwritten
    have hlist := congrArg String.toList hwritten
    rw [String.toList_append, String.toList_append, List.append_cancel_left_eq] at hlist
    exact ⟨⟨Hex.encode id.bytes, hmarked, (String.toList_inj.mp hlist).symm⟩, ofText_text id⟩
  · rintro ⟨⟨digits, rfl, hlower⟩, h⟩
    rw [text_of_ok h, hunmarked, hlower]

theorem ofJsonText_toJson (id : Identifier k) : ofJsonText k id.toJson.compact = .ok id := by
  unfold ofJsonText toJson
  rw [Json.read?_compact]
  simp only [ofJson, ofText_text]
  rfl

/-! ## Text forms -/

/-- A text is read exactly when it has as many digits as the identifier, behind one marker or none, and
it is read as the bytes that they spell; all else is refused, an odd number of bytes or one that is no
digit as no hexadecimal text, another number of digits by its length. The text that is written is the
only one with the marker and without capitals, and it is read back, also from JSON. -/
theorem text_forms (k : IdKind) :
    (∀ s : String,
      let digits := unmarkedChars s.toList
      let bytes := Text.utf8 (String.ofList digits)
      ((∃ id : Identifier k, ofText k s = .ok id) ↔ digits.length = 2 * k.size ∧ ∀ c ∈ digits, IsHexDigit c) ∧
      (∀ id : Identifier k, ofText k s = .ok id →
        SpellsBytes digits id.bytes ∧ id.text = "0x" ++ (String.ofList digits).toLower) ∧
      ((∃ cause, ofText k s = .error (.badHex cause)) ↔
        bytes.length % 2 = 1 ∨ ∃ b ∈ bytes, ¬ IsHexDigit (Char.ofNat b.toNat)) ∧
      ∀ l got, ofText k s = .error (.badLength l got) ↔
        l = k ∧ got ≠ k.size ∧ digits.length = 2 * got ∧ ∀ c ∈ digits, IsHexDigit c) ∧
    ∀ id : Identifier k, ofText k id.text = .ok id ∧ ofJsonText k id.toJson.compact = .ok id ∧
      ∀ t : String, t = id.text ↔
        (∃ digits : String, t = "0x" ++ digits ∧ digits.toLower = digits) ∧ ofText k t = .ok id := by
  constructor
  · intro s digits bytes
    refine ⟨exists_ofText_iff, ?_, ?_, fun l got => ofText_badLength_iff⟩
    · intro id h
      exact ⟨ofText_ok_iff.mp h, text_of_ok h⟩
    · rw [ofText_badHex_iff, Hex.ofText_eq]
      exact Hex.decode_error_iff
  · intro id
    exact ⟨ofText_text id, ofJsonText_toJson id, fun t => eq_text_iff⟩

theorem text_forms_cases :
    let digits := "5649544520544F4b454e".toList
    (digits.length = 2 * IdKind.token.size ∧ ∀ c ∈ digits, IsHexDigit c) ∧
      (∃ id : Identifier .token, ofText .token "0x5649544520544F4b454e" = .ok id ∧
        SpellsBytes digits id.bytes ∧ id.text = "0x5649544520544f4b454e") ∧
      ∃ cause, ofText .token "0x5649544520544F4b454" = .error (.badHex cause) := by
  intro digits
  obtain ⟨hexists, hread, -⟩ := (text_forms .token).1 "0x5649544520544F4b454e"
  obtain ⟨-, -, hodd, -⟩ := (text_forms .token).1 "0x5649544520544F4b454"
  have hdigits : digits.length = 2 * IdKind.token.size ∧ ∀ c ∈ digits, IsHexDigit c :=
    ⟨by decide, List.all_eq_true.mp (by decide)⟩
  obtain ⟨id, hid⟩ := hexists.mpr hdigits
  obtain ⟨hspelled, htext⟩ := hread id hid
  refine ⟨hdigits, ⟨id, hid, hspelled, htext.trans (by decide +kernel)⟩, hodd.mpr (.inl ?_)⟩
  decide +kernel

end Identifier

end Calldata
