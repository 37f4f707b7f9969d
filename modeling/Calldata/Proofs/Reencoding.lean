import Calldata.Proofs.Canonical

/-!
# Encoding again what was decoded

The decoder looks at less than the encoder: offsets may share data, padding and the high bytes of a
word may be anything. Of all this only the width of an integer can show in a value, so what was
decoded can be encoded again unless an integer is too wide.
-/

namespace Calldata

/-- The value has the form of the type, whatever the width of its integers. -/
def Shaped : ParamType → Value → Prop
  | .int _, .int v => -(2 ^ 255) ≤ v.toInt ∧ v.toInt < 2 ^ 255 ∧ (v.toInt = 0 → v.negative = false)
  | .uint _, .uint _ => True
  | .bool, .bool _ => True
  | .identifier k, .identifier l _ => l = k
  | .bytes32, .bytes bs => bs.length = wordSize
  | .bytes, .bytes _ => True
  | .string, .string _ => True
  | .fixedArray elem n, .array items => items.length = n ∧ ∀ v ∈ items, Shaped elem v
  | .array elem, .array items => ∀ v ∈ items, Shaped elem v
  | _, _ => False

/-- Every integer in the value lies in the range of its width. -/
def Fits : ParamType → Value → Prop
  | .int bits, .int v => -(2 ^ (bits - 1)) ≤ v.toInt ∧ v.toInt < 2 ^ (bits - 1)
  | .uint bits, .uint w => w.toNat < 2 ^ bits
  | .fixedArray elem _, .array items | .array elem, .array items => ∀ v ∈ items, Fits elem v
  | _, _ => True

variable {data e : Bytes} {t elem : ParamType} {ts : List ParamType} {v : Value} {vs items : List Value}
  {ps : List Tuple.Part} {o base cursor n : Nat}

/-! ## What was decoded has the form of its type -/

theorem shaped_int (bits : Nat) (w : Word) : Shaped (.int bits) (.int (Signed.ofTwosComplement w)) := by
  have hlow : -(2 ^ 255) ≤ w.toInt := BitVec.le_toInt w
  have hhigh : w.toInt < 2 ^ 255 := BitVec.toInt_lt
  refine ⟨?_, ?_, fun h0 => ?_⟩
  · rwa [Signed.toInt_ofTwosComplement]
  · rwa [Signed.toInt_ofTwosComplement]
  · cases hn : (Signed.ofTwosComplement w).negative with
    | false => rfl
    | true =>
      have hpos := Signed.magnitude_pos hn
      rw [Signed.toInt_of_negative hn] at h0
      omega

theorem shaped_valueOfWord (ht : t.isScalar = true) (w : Word) : Shaped t (t.valueOfWord w) := by
  cases t with
  | int bits => exact shaped_int bits w
  | uint bits => trivial
  | bool => trivial
  | identifier k => rfl
  | bytes32 => exact length_wordBytes w
  | function | bytes | string | fixedArray | array => simp [ParamType.isScalar] at ht

theorem shaped_fields (ht : ∀ t ∈ ts, ∀ p v n, Runs (decodeAt data t p) (.ok v) n → Shaped t v)
    (h : Runs (decodeFields data base cursor ts) (.ok vs) n) : List.Forall₂ Shaped ts vs := by
  induction ts generalizing cursor vs n with
  | nil =>
    obtain ⟨rfl, -⟩ := runs_nil_iff.mp h
    exact .nil
  | cons t ts ih =>
    obtain ⟨v, vs', i, j, hfield, hvs, rfl, -⟩ := runs_cons_iff.mp h
    obtain ⟨p, -, hv⟩ := runs_field_iff.mp hfield
    exact .cons (ht t List.mem_cons_self p v i hv) (ih (fun u hu => ht u (List.mem_cons_of_mem t hu)) hvs)

theorem shaped_of_runs (h : Runs (decodeAt data t o) (.ok v) n) : Shaped t v := by
  induction t using ParamType.codecInduction generalizing o v n with
  | scalar t ht =>
    obtain ⟨w, -, rfl, -⟩ := (runs_scalar_iff ht).mp h
    exact shaped_valueOfWord ht w
  | function => exact absurd h not_runs_function
  | bytes =>
    obtain ⟨bs, -, rfl, -⟩ := runs_bytes_iff.mp h
    trivial
  | string =>
    obtain ⟨s, -, rfl, -⟩ := runs_string_iff.mp h
    trivial
  | fixedArray elem k ih =>
    obtain ⟨-, items, hitems, rfl⟩ := runs_fixedArray_iff.mp h
    exact forall_replicate.mp (shaped_fields (ParamType.forall_items fun _ _ _ => ih) hitems)
  | array elem ih =>
    obtain ⟨k, items, i, -, -, hitems, rfl, -⟩ := runs_array_iff.mp h
    exact (forall_replicate.mp (shaped_fields (ParamType.forall_items fun _ _ _ => ih) hitems)).2

/-! ## What the encoder asks for besides -/

theorem typed_of_shaped (hs : Shaped t v) (hf : Fits t v) : Typed t v := by
  induction t using ParamType.codecInduction generalizing v with
  | scalar t ht =>
    unfold Shaped at hs
    split at hs <;> simp_all [Typed, Fits, ParamType.isScalar]
  | function => cases v <;> exact hs.elim
  | bytes | string => cases v <;> exact hs
  | fixedArray elem n ih =>
    cases v with
    | array items => exact ⟨hs.1, fun v hv => ih (hs.2 v hv) (hf v hv)⟩
    | _ => exact hs.elim
  | array elem ih =>
    cases v with
    | array items => exact fun v hv => ih (hs v hv) (hf v hv)
    | _ => exact hs.elim

theorem fits_fields (ht : ∀ t ∈ ts, ∀ v e, encodeValue t v = .ok e → Fits t v) (h : Parts ts vs ps) :
    List.Forall₂ Fits ts vs := by
  induction h with
  | nil => exact .nil
  | @cons t v e ts vs ps first rest ih =>
    exact .cons (ht t List.mem_cons_self v e first) (ih fun u hu => ht u (List.mem_cons_of_mem t hu))

theorem fits_items (ht : ∀ v e, encodeValue elem v = .ok e → Fits elem v)
    (h : encode (List.replicate n elem) items = .ok e) : ∀ v ∈ items, Fits elem v := by
  obtain ⟨-, ps, hps, -⟩ := encode_ok_iff.mp h
  exact (forall_replicate.mp (fits_fields (ParamType.forall_items ht) hps)).2

theorem fits_of_ok (h : encodeValue t v = .ok e) : Fits t v := by
  induction t using ParamType.codecInduction generalizing v e with
  | scalar t ht =>
    unfold Fits
    split
    · rename_i bits i
      obtain ⟨⟨h8, h256, -⟩, j, hj, hfits, -⟩ := Scalar.encodeInt_iff.mp h
      obtain rfl : i = j := Except.ok.inj hj
      exact (Signed.fits_iff (by omega) h256).mp hfits
    · obtain ⟨-, j, hj, -, hlt, -⟩ := Scalar.encodeUint_iff.mp h
      obtain rfl := Except.ok.inj hj
      exact hlt
    all_goals simp_all [ParamType.isScalar]
  | function | bytes | string => trivial
  | fixedArray elem n ih =>
    obtain ⟨items, rfl, -, henc⟩ := encode_fixedArray_iff.mp h
    exact fits_items (fun _ _ => ih) henc
  | array elem ih =>
    obtain ⟨items, b, rfl, henc, -⟩ := encode_array_iff.mp h
    exact fits_items (fun _ _ => ih) henc

theorem typed_fields (hs : List.Forall₂ Shaped ts vs) (hf : List.Forall₂ Fits ts vs) :
    List.Forall₂ Typed ts vs := by
  induction hs with
  | nil => exact .nil
  | cons hv hvs ih =>
    obtain ⟨hfit, hfits⟩ := List.forall₂_cons.mp hf
    exact .cons (typed_of_shaped hv hfit) (ih hfits)

/-! ## Encoding again -/

/-- What was decoded has the form of the types. As long as its encoding is not too long, it can be
encoded again exactly when each of its integers fits the width of its type, and then the encoding is
decoded to the same values. -/
theorem decode_reencodes (types : List ParamType) (data : Bytes) (values : List Value)
    (htypes : ∀ t ∈ types, t.WellFormed ∧ t.FunctionFree) (hlen : data.length < 2 ^ 63)
    (h : decode types data = .ok values) :
    List.Forall₂ Shaped types values ∧
    (encodedSizes types values < 2 ^ 63 →
      ((∃ b, encode types values = .ok b) ↔ List.Forall₂ Fits types values) ∧
      ∀ b, encode types values = .ok b →
        b.length = encodedSizes types values ∧ decode types b = .ok values) := by
  obtain ⟨n, hn, -⟩ := (decode_ok_iff hlen).mp h
  have hshaped : List.Forall₂ Shaped types values := shaped_fields (fun _ _ _ _ _ => shaped_of_runs) hn
  refine ⟨hshaped, fun hsize => ?_⟩
  have hfits (b : Bytes) (henc : encode types values = .ok b) : List.Forall₂ Fits types values := by
    obtain ⟨-, ps, hps, -⟩ := encode_ok_iff.mp henc
    exact fits_fields (fun _ _ _ _ => fits_of_ok) hps
  refine ⟨⟨fun ⟨b, henc⟩ => hfits b henc, fun hf => ?_⟩, fun b henc => ?_⟩
  · have hmax : encodedSizes types values ≤ maxSize := (lt_maxSize hsize).le
    exact encodes_fields (fun t ht v => encodes (htypes t ht).1) (typed_fields hshaped hf) hmax
  · have htyped := typed_fields hshaped (hfits b henc)
    obtain ⟨-, ps, hps, hb⟩ := encode_ok_iff.mp henc
    have hsame : b.length = encodedSizes types values := hb ▸ length_layOut htyped hps
    exact ⟨hsame, decode_of_typed htypes htyped henc (hsame ▸ hsize)⟩

/-- Two arrays that share their data: with a byte in them they can be encoded again, apart from each
other, and with one more they cannot. -/
theorem decode_reencodes_shared :
    let types := List.replicate 2 (ParamType.array (.uint 8))
    let data (n : Nat) := bigEndian wordSize 64 ++ bigEndian wordSize 64 ++ bigEndian wordSize 1 ++
      bigEndian wordSize n
    let values (w : Word) := List.replicate 2 (Value.array [.uint w])
    ((∀ t ∈ types, t.WellFormed ∧ t.FunctionFree) ∧
      ((data 255).length < 2 ^ 63 ∧ decode types (data 255) = .ok (values 255) ∧
        encodedSizes types (values 255) < 2 ^ 63) ∧
      (data 256).length < 2 ^ 63 ∧ decode types (data 256) = .ok (values 256) ∧
        encodedSizes types (values 256) < 2 ^ 63) ∧
    (∃ b, encode types (values 255) = .ok b ∧ b.length = 192 ∧ decode types b = .ok (values 255)) ∧
    ¬ ∃ b, encode types (values 256) = .ok b := by
  intro types data values
  have htypes : ∀ t ∈ types, t.WellFormed ∧ t.FunctionFree := by
    simp [types, ParamType.WellFormed, ParamType.FunctionFree, ParamType.IsWidth]
  have hlen : (data 255).length < 2 ^ 63 := by decide +kernel
  have hlen' : (data 256).length < 2 ^ 63 := by decide +kernel
  have hdec : decode types (data 255) = .ok (values 255) := eq_ok_of_toOption (by decide +kernel)
  have hdec' : decode types (data 256) = .ok (values 256) := eq_ok_of_toOption (by decide +kernel)
  have hsize : encodedSizes types (values 255) = 192 := by decide +kernel
  have hsize' : encodedSizes types (values 256) = 192 := by decide +kernel
  have hfits (w : Word) : List.Forall₂ Fits types (values w) ↔ w.toNat < 256 := by
    simp [types, values, Fits, List.replicate]
  obtain ⟨hiff, hback⟩ := (decode_reencodes types _ _ htypes hlen hdec).2 (by omega)
  obtain ⟨hiff', -⟩ := (decode_reencodes types _ _ htypes hlen' hdec').2 (by omega)
  refine ⟨⟨htypes, ⟨hlen, hdec, by omega⟩, hlen', hdec', by omega⟩, ?_, ?_⟩
  · obtain ⟨b, henc⟩ := hiff.mpr ((hfits 255).mpr (by decide))
    obtain ⟨hb, hdecb⟩ := hback b henc
    exact ⟨b, henc, hb.trans hsize, hdecb⟩
  · rw [hiff', hfits]
    decide

end Calldata
