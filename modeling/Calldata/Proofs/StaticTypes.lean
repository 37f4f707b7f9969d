import Calldata.Proofs.Spans
import Calldata.Proofs.Typed

/-!
# Static types

A static type has one size. Its values are encoded in that many bytes, and a value of it is decoded
wherever that many bytes stand, whatever they are and whatever stands around them.
-/

namespace Calldata

variable {data other bs : Bytes} {t elem : ParamType} {ts : List ParamType} {v : Value} {vs : List Value} {e : Bytes}
  {o base cursor n k : Nat}

/-! ## Sizes -/

/-- The words that a value of a static type fills: the product of the lengths of its arrays. -/
def ParamType.wordCount : ParamType → Nat
  | fixedArray elem n => elem.wordCount * n
  | _ => 1

theorem wordCount_fixedArray (elem : ParamType) (n : Nat) :
    (ParamType.fixedArray elem n).wordCount = elem.wordCount * n := rfl

theorem wordCount_of_isScalar (ht : t.isScalar = true) : t.wordCount = 1 := by
  cases t <;> first | rfl | simp [ParamType.isScalar] at ht

/-- The size of a static type is cut down once, at whatever depth its product gets too large. -/
theorem staticSize_eq (hd : t.isDynamic = false) : t.staticSize = min (wordSize * t.wordCount) maxSize := by
  induction t using ParamType.codecInduction with
  | scalar t ht => cases t <;> first | rfl | simp [ParamType.isScalar] at ht
  | function => rfl
  | bytes | string | array => simp [ParamType.isDynamic] at hd
  | fixedArray elem n ih =>
    unfold ParamType.staticSize
    rw [ih hd, wordCount_fixedArray, ← Nat.mul_assoc]
    change min (min (wordSize * elem.wordCount) maxSize * n) maxSize = _
    rcases Nat.eq_zero_or_pos n with rfl | hn
    · simp
    · have hmax : maxSize ≤ maxSize * n := Nat.le_mul_of_pos_right _ hn
      rw [← Nat.mul_min_mul_right]
      omega

theorem headSize_eq (hd : t.isDynamic = false) : t.headSize = t.staticSize := by
  unfold ParamType.headSize
  simp [hd]

theorem staticSize_of_le (hd : t.isDynamic = false) (h : wordSize * t.wordCount ≤ maxSize) :
    t.staticSize = wordSize * t.wordCount := by
  rw [staticSize_eq hd, Nat.min_eq_left h]

/-! ## Encodings -/

/-- A type whose size is cut down has no encodings, because the items of its arrays would not fit. -/
theorem size_of_ok (hd : t.isDynamic = false) (h : encodeValue t v = .ok e) : wordSize * t.wordCount ≤ maxSize := by
  induction t using ParamType.codecInduction generalizing v e with
  | scalar t ht =>
    rw [wordCount_of_isScalar ht]
    decide
  | function => decide
  | bytes | string | array => simp [ParamType.isDynamic] at hd
  | fixedArray elem n ih =>
    have hdelem : elem.isDynamic = false := hd
    obtain ⟨items, -, hn, henc⟩ := encode_fixedArray_iff.mp h
    obtain ⟨hmax, ps, hps, -⟩ := encode_ok_iff.mp henc
    rw [headSize_replicate, headSize_eq hdelem] at hmax
    rw [wordCount_fixedArray]
    cases n with
    | zero => simp
    | succ n =>
      cases hps with
      | cons first rest =>
        rw [staticSize_of_le hdelem (ih hdelem first)] at hmax
        rwa [← Nat.mul_assoc, Nat.mul_comm]

theorem length_exact (hd : t.isDynamic = false) (h : encodeValue t v = .ok e) :
    e.length = t.staticSize ∧ t.staticSize = wordSize * t.wordCount :=
  ⟨(length_of_static hd h).trans (headSize_eq hd), staticSize_of_le hd (size_of_ok hd h)⟩

/-! ## Room -/

theorem room_of_runs (hlen : data.length < 2 ^ 63) (hd : t.isDynamic = false)
    (h : Runs (decodeAt data t o) (.ok v) n) : o + t.staticSize ≤ data.length := by
  induction t using ParamType.codecInduction generalizing v n with
  | scalar t ht =>
    obtain ⟨w, hw, -, -⟩ := (runs_scalar_iff ht).mp h
    have hroom := (Payload.word_ok_iff.mp hw).2.le
    rwa [← headSize_eq hd, ParamType.headSize_of_isScalar ht, ← length_wordBytes w]
  | function => exact absurd h not_runs_function
  | bytes | string | array => simp [ParamType.isDynamic] at hd
  | fixedArray elem k ih =>
    have hdelem : elem.isDynamic = false := hd
    have hmax := lt_maxSize hlen
    obtain ⟨hroom, -⟩ := runs_fixedArray_iff.mp h
    rw [Payload.checkRoom_ok_iff, headSize_eq hdelem] at hroom
    unfold ParamType.staticSize
    change o + min (elem.staticSize * k) maxSize ≤ _
    omega

theorem runs_of_items (ht : ∀ bs : Bytes, bs.length = wordSize * elem.wordCount → bs.length ≤ maxSize → ∃ v,
      ∀ data o, data.length < 2 ^ 63 → Holds data o bs → Runs (decodeAt data elem o) (.ok v) elem.wordCount)
    (hd : elem.isDynamic = false) (hbs : bs.length = wordSize * (elem.wordCount * k)) (hmax : bs.length ≤ maxSize) :
    ∃ vs, ∀ data base cursor, data.length < 2 ^ 63 → Holds data cursor bs →
      Runs (decodeFields data base cursor (List.replicate k elem)) (.ok vs) (elem.wordCount * k) := by
  induction k generalizing bs with
  | zero => exact ⟨[], fun data base cursor _ _ => runs_nil_iff.mpr ⟨rfl, rfl⟩⟩
  | succ k ih =>
    rw [Nat.mul_succ, Nat.mul_add] at hbs
    have hsize : elem.headSize = wordSize * elem.wordCount :=
      (headSize_eq hd).trans (staticSize_of_le hd (by omega))
    have hfirst : (bs.take elem.headSize).length = elem.headSize := by rw [List.length_take]; omega
    have hrest : (bs.drop elem.headSize).length = wordSize * (elem.wordCount * k) := by rw [List.length_drop]; omega
    obtain ⟨v, hv⟩ := ht _ (hfirst.trans hsize) (by omega)
    obtain ⟨vs, hvs⟩ := ih hrest (by omega)
    refine ⟨v :: vs, fun data base cursor hlen hholds => ?_⟩
    rw [← List.take_append_drop elem.headSize bs, holds_append, hfirst] at hholds
    rw [List.replicate_succ, Nat.mul_succ, Nat.add_comm]
    refine runs_cons_iff.mpr ⟨v, vs, _, _, ?_, hvs data base _ hlen hholds.2, rfl, rfl⟩
    exact runs_field_iff.mpr ⟨cursor, (place_static_iff hd).mpr rfl, hv data cursor hlen hholds.1⟩

theorem runs_of_bytes (hd : t.isDynamic = false) (hf : t.FunctionFree) (hbs : bs.length = wordSize * t.wordCount)
    (hmax : bs.length ≤ maxSize) :
    ∃ v, ∀ data o, data.length < 2 ^ 63 → Holds data o bs → Runs (decodeAt data t o) (.ok v) t.wordCount := by
  induction t using ParamType.codecInduction generalizing bs with
  | scalar t ht =>
    rw [wordCount_of_isScalar ht] at *
    refine ⟨t.valueOfWord (wordOfBytes bs), fun data o hlen hholds => ?_⟩
    have hword : Payload.word data o = .ok (wordOfBytes bs) := by
      have hle := hholds.le
      have hlt := lt_maxSize hlen
      rw [Payload.word_ok_iff, wordBytes_wordOfBytes hbs]
      exact ⟨by omega, hholds⟩
    exact (runs_scalar_iff ht).mpr ⟨_, hword, rfl, rfl⟩
  | function => exact hf.elim
  | bytes | string | array => simp [ParamType.isDynamic] at hd
  | fixedArray elem k ih =>
    have hdelem : elem.isDynamic = false := hd
    obtain ⟨vs, hvs⟩ := runs_of_items (fun _ => ih hdelem hf) hdelem hbs hmax
    refine ⟨.array vs, fun data o hlen hholds => ?_⟩
    have hroom : elem.headSize * k ≤ bs.length := by
      rw [hbs, headSize_eq hdelem, staticSize_eq hdelem, wordCount_fixedArray, ← Nat.mul_assoc]
      exact Nat.mul_le_mul_right k (Nat.min_le_left _ _)
    have hle := hholds.le
    refine runs_fixedArray_iff.mpr ⟨Payload.checkRoom_ok_iff.mpr ?_, vs, hvs data o o hlen hholds, rfl⟩
    omega

/-! ## Decoding -/

theorem decodeValue_of_bytes (hd : t.isDynamic = false) (hf : t.FunctionFree) (hbs : bs.length = t.staticSize)
    (hmax : bs.length < 2 ^ 63) :
    ∃ v, ∀ data o, data.length < 2 ^ 63 → Holds data o bs → decodeValue t data o = .ok v := by
  have hlt := lt_maxSize hmax
  have hsize := staticSize_eq hd
  have hexact : bs.length = wordSize * t.wordCount := by omega
  obtain ⟨v, hv⟩ := runs_of_bytes hd hf hexact (by omega)
  refine ⟨v, fun data o hlen hholds => ?_⟩
  have hle := hholds.le
  -- Neither the budget nor a check of the room inside stops a decode with room for the whole.
  exact run_of_le hlen (hv data o hlen hholds) (by omega)

theorem holds_slice (h : o + n ≤ data.length) : Holds data o ((data.drop o).take n) := by
  have hn : ((data.drop o).take n).length = n := by rw [List.length_take, List.length_drop]; omega
  exact ⟨by omega, by rw [hn]⟩

/-- Every encoding of a value of a static type has the size of the type, which is the product of the
lengths of its arrays in words; where that is too large there is no encoding. A value of the type is
decoded exactly where the data have room for it, and depends on these bytes only. -/
theorem static_exact (t : ParamType) (hd : t.isDynamic = false) :
    (∀ v b, encodeValue t v = .ok b → b.length = t.staticSize ∧ t.staticSize = wordSize * t.wordCount) ∧
    (maxSize < wordSize * t.wordCount → ∀ v, ∃ fault, encodeValue t v = .error fault) ∧
    (t.FunctionFree → ∀ data o, data.length < 2 ^ 63 →
      ((∃ v, decodeValue t data o = .ok v) ↔ o + t.staticSize ≤ data.length) ∧
      ∀ other o', other.length < 2 ^ 63 → o + t.staticSize ≤ data.length → o' + t.staticSize ≤ other.length →
        (data.drop o).take t.staticSize = (other.drop o').take t.staticSize →
        decodeValue t data o = decodeValue t other o') := by
  refine ⟨fun v b => length_exact hd, fun hbig v => ?_, fun hf data o hlen => ?_⟩
  · cases h : encodeValue t v with
    | error fault => exact ⟨fault, rfl⟩
    | ok b =>
      have hle := size_of_ok hd h
      omega
  have hdecode (h : o + t.staticSize ≤ data.length) : ∃ v, ∀ other o', other.length < 2 ^ 63 →
      Holds other o' ((data.drop o).take t.staticSize) → decodeValue t other o' = .ok v := by
    have hn : ((data.drop o).take t.staticSize).length = t.staticSize := by
      rw [List.length_take, List.length_drop]
      omega
    exact decodeValue_of_bytes hd hf hn (by omega)
  constructor
  · constructor
    · rintro ⟨v, hv⟩
      obtain ⟨n, hn, -⟩ := (run_ok_iff hlen (metered_decodeAt data t o)).mp hv
      exact room_of_runs hlen hd hn
    · intro h
      obtain ⟨v, hv⟩ := hdecode h
      exact ⟨v, hv data o hlen (holds_slice h)⟩
  · intro other o' hlen' h h' heq
    obtain ⟨v, hv⟩ := hdecode h
    rw [hv data o hlen (holds_slice h), hv other o' hlen' (heq ▸ holds_slice h')]

theorem static_exact_pairs :
    let pair := ParamType.fixedArray (.uint 8) 2
    let pairs := ParamType.fixedArray pair 3
    let many := ParamType.fixedArray pair (2 ^ 64 - 1)
    let values := Value.array (List.replicate 3 (.array [.uint 1, .uint 2]))
    let data := List.replicate 197 (0xff : UInt8)
    let other := zeros 7 ++ List.replicate 192 0xff ++ zeros 3
    (pairs.isDynamic = false ∧ pairs.FunctionFree ∧ data.length < 2 ^ 63) ∧
      (∃ b, encodeValue pairs values = .ok b ∧ b.length = 192) ∧
      (∃ v, decodeValue pairs data 5 = .ok v) ∧ (¬ ∃ v, decodeValue pairs data 6 = .ok v) ∧
      decodeValue pairs data 5 = decodeValue pairs other 7 ∧
      (many.isDynamic = false ∧ many.staticSize = maxSize ∧ maxSize < wordSize * many.wordCount ∧
        ∃ fault, encodeValue many values = .error fault) := by
  intro pair pairs many values data other
  have hsize : pairs.staticSize = 192 := rfl
  have hlen : data.length = 197 := List.length_replicate
  have hlen' : other.length = 202 := by decide +kernel
  have hmany : maxSize < wordSize * many.wordCount := by decide
  obtain ⟨hencode, -, hdecode⟩ := static_exact pairs rfl
  obtain ⟨-, hrefuse, -⟩ := static_exact many rfl
  obtain ⟨b, hb⟩ : ∃ b, encodeValue pairs values = .ok b := ⟨_, rfl⟩
  obtain ⟨hfive, hsame⟩ := hdecode trivial data 5 (by omega)
  obtain ⟨hsix, -⟩ := hdecode trivial data 6 (by omega)
  rw [hsize] at *
  refine ⟨⟨rfl, trivial, by omega⟩, ⟨b, hb, (hencode values b hb).1⟩, hfive.mpr (by omega), ?_, ?_,
    rfl, by decide, hmany, hrefuse hmany values⟩
  · rw [hsix]
    omega
  · exact hsame other 7 (by omega) (by omega) (by omega) (by decide +kernel)

end Calldata
