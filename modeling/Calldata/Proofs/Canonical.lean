import Calldata.Proofs.RoundTrip

/-!
# Canonical values

Literals and values of other forms are encoded too, but as no other bytes than the values in the
form of their type. So each encoding stands for one value, which is what it is decoded to.
-/

namespace Calldata

variable {t elem : ParamType} {ts : List ParamType} {v : Value} {vs items : List Value} {e b : Bytes}
  {ps : List Tuple.Part} {n : Nat}

/-- A value in the form of the type has the same encoding. -/
def Represented (t : ParamType) (e : Bytes) : Prop := ∃ w, Typed t w ∧ encodeValue t w = .ok e

/-! ## Words -/

theorem represented_int {bits : Nat} (h : encodeValue (.int bits) v = .ok e) : Represented (.int bits) e := by
  obtain ⟨hw, i, -, hfits, rfl⟩ := Scalar.encodeInt_iff.mp h
  obtain ⟨h8, h256, -⟩ := id hw
  have hrange := (Signed.fits_iff (by omega) h256).mp hfits
  exact ⟨.int i, hrange, Scalar.encodeInt_iff.mpr ⟨hw, i, rfl, hfits, rfl⟩⟩

theorem represented_uint {bits : Nat} (h : encodeValue (.uint bits) v = .ok e) : Represented (.uint bits) e := by
  obtain ⟨hw, i, -, -, hlt, rfl⟩ := Scalar.encodeUint_iff.mp h
  exact ⟨.uint i.magnitude, hlt, Scalar.encodeUint_iff.mpr ⟨hw, .of i.magnitude false, rfl, rfl, hlt, rfl⟩⟩

theorem represented_bool (h : encodeValue .bool v = .ok e) : Represented .bool e := by
  obtain ⟨b, -, rfl⟩ := Scalar.encodeBool_iff.mp h
  exact ⟨.bool b, trivial, Scalar.encodeBool_iff.mpr ⟨b, rfl, rfl⟩⟩

theorem represented_identifier {k : IdKind} (h : encodeValue (.identifier k) v = .ok e) :
    Represented (.identifier k) e := by
  obtain ⟨id, -, rfl⟩ := Scalar.encodeIdentifier_iff.mp h
  have hid : Scalar.identifierOf k (.identifier k id) = .ok id := by simp [Scalar.identifierOf]
  exact ⟨.identifier k id, rfl, Scalar.encodeIdentifier_iff.mpr ⟨id, hid, rfl⟩⟩

theorem represented_bytes32 (h : encodeValue .bytes32 v = .ok e) : Represented .bytes32 e := by
  obtain ⟨bs, -, hle, -, rfl⟩ := Scalar.encodeBytes32_iff.mp h
  have hlen : (padRight wordSize bs).length = wordSize := length_padRight hle
  refine ⟨.bytes (padRight wordSize bs), hlen, Scalar.encodeBytes32_iff.mpr ⟨_, rfl, Nat.le_of_eq hlen, ?_, ?_⟩⟩
  · intro _
    exact hlen
  · exact padRight_of_length_eq hlen

theorem represented_function (h : encodeValue .function v = .ok e) : Represented .function e := by
  obtain ⟨bs, -, hlen, rfl⟩ := Scalar.encodeFunction_iff.mp h
  exact ⟨.bytes bs, hlen, Scalar.encodeFunction_iff.mpr ⟨bs, rfl, hlen, rfl⟩⟩

theorem represented_scalar (ht : t.isScalar = true) (h : encodeValue t v = .ok e) : Represented t e := by
  cases t with
  | int bits => exact represented_int h
  | uint bits => exact represented_uint h
  | bool => exact represented_bool h
  | identifier k => exact represented_identifier h
  | bytes32 => exact represented_bytes32 h
  | function | bytes | string | fixedArray | array => simp [ParamType.isScalar] at ht

/-! ## Tuples and arrays -/

theorem represented_parts (ht : ∀ t ∈ ts, ∀ v e, encodeValue t v = .ok e → Represented t e)
    (h : Parts ts vs ps) : ∃ ws, List.Forall₂ Typed ts ws ∧ Parts ts ws ps := by
  induction h with
  | nil => exact ⟨[], .nil, .nil⟩
  | @cons t v e ts vs ps first rest ih =>
    obtain ⟨w, hw, he⟩ := ht t List.mem_cons_self v e first
    obtain ⟨ws, hws, hps⟩ := ih fun u hu => ht u (List.mem_cons_of_mem t hu)
    exact ⟨w :: ws, .cons hw hws, .cons he hps⟩

theorem represented_tuple (ht : ∀ t ∈ ts, ∀ v e, encodeValue t v = .ok e → Represented t e)
    (h : encode ts vs = .ok b) : ∃ ws, List.Forall₂ Typed ts ws ∧ encode ts ws = .ok b := by
  obtain ⟨hmax, ps, hps, hb⟩ := encode_ok_iff.mp h
  obtain ⟨ws, hws, hps'⟩ := represented_parts ht hps
  exact ⟨ws, hws, encode_ok_iff.mpr ⟨hmax, ps, hps', hb⟩⟩

theorem represented_items (ht : ∀ v e, encodeValue elem v = .ok e → Represented elem e)
    (h : encode (List.replicate n elem) items = .ok b) :
    ∃ ws, ws.length = n ∧ List.Forall₂ Typed (List.replicate n elem) ws ∧
      encode (List.replicate n elem) ws = .ok b := by
  obtain ⟨ws, hws, henc⟩ := represented_tuple (ParamType.forall_items ht) h
  exact ⟨ws, (forall_replicate.mp hws).1, hws, henc⟩

/-- Whatever has an encoding shares it with a value in the form of the type. -/
theorem represented_of_ok (h : encodeValue t v = .ok e) : Represented t e := by
  induction t using ParamType.codecInduction generalizing v e with
  | scalar t ht => exact represented_scalar ht h
  | function => exact represented_function h
  | bytes =>
    rw [encodeValue] at h
    obtain ⟨bs, -, rfl⟩ := map_ok_iff.mp h
    exact ⟨.bytes bs, trivial, rfl⟩
  | string =>
    rw [encodeValue] at h
    obtain ⟨s, -, rfl⟩ := map_ok_iff.mp h
    exact ⟨.string s, trivial, rfl⟩
  | fixedArray elem n ih =>
    obtain ⟨items, -, -, henc⟩ := encode_fixedArray_iff.mp h
    obtain ⟨ws, hlen, hws, henc'⟩ := represented_items (fun _ _ => ih) henc
    exact ⟨.array ws, typed_fixedArray_iff.mpr ⟨ws, rfl, hlen, hws⟩,
      encode_fixedArray_iff.mpr ⟨ws, rfl, hlen, henc'⟩⟩
  | array elem ih =>
    obtain ⟨items, b, -, henc, heq⟩ := encode_array_iff.mp h
    obtain ⟨ws, hlen, hws, henc'⟩ := represented_items (fun _ _ => ih) henc
    rw [heq, ← hlen]
    rw [← hlen] at hws henc'
    exact ⟨.array ws, typed_array_iff.mpr ⟨ws, rfl, hws⟩, encode_array_iff.mpr ⟨ws, b, rfl, henc', rfl⟩⟩

/-! ## Decoding -/

theorem decode_of_typed (htypes : ∀ t ∈ ts, t.WellFormed ∧ t.FunctionFree)
    (hvalues : List.Forall₂ Typed ts vs) (henc : encode ts vs = .ok b) (hlen : b.length < 2 ^ 63) :
    decode ts b = .ok vs := by
  have hmax : b.length ≤ maxSize := (lt_maxSize hlen).le
  obtain ⟨-, ps, hps, rfl⟩ := encode_ok_iff.mp henc
  obtain ⟨n, hn⟩ := runs_fields hmax
    (fun t ht _ _ _ => runs_of_holds hmax (htypes t ht).1 (htypes t ht).2) hvalues hps (laid_layOut hps (holds_self _))
  obtain rfl := spent_eq_weights hn
  have hcost : wordSize * weights ts vs ≤ _ := weights_le fun t _ => weight_le t
  rw [← length_layOut hvalues hps] at hcost
  exact run_of_le hlen hn hcost

/-- Whatever values are encoded, literals and stand-ins among them, the encoding is decoded to
values in the form of the types, and these have the same encoding. So two lists of values have the
same encoding exactly when they are decoded to the same values. -/
theorem encode_canonical (types : List ParamType) (htypes : ∀ t ∈ types, t.WellFormed ∧ t.FunctionFree) :
    (∀ values b, encode types values = .ok b → b.length < 2 ^ 63 →
      ∃ typed, decode types b = .ok typed ∧ List.Forall₂ Typed types typed ∧ encode types typed = .ok b) ∧
    ∀ values values' b b', encode types values = .ok b → encode types values' = .ok b' →
      b.length < 2 ^ 63 → b'.length < 2 ^ 63 →
      (b = b' ↔ ∃ typed, decode types b = .ok typed ∧ decode types b' = .ok typed) := by
  have hcanonical (values : List Value) (b : Bytes) (henc : encode types values = .ok b) (hlen : b.length < 2 ^ 63) :
      ∃ typed, decode types b = .ok typed ∧ List.Forall₂ Typed types typed ∧ encode types typed = .ok b := by
    obtain ⟨ws, hws, henc'⟩ := represented_tuple (fun _ _ _ _ => represented_of_ok) henc
    exact ⟨ws, decode_of_typed htypes hws henc' hlen, hws, henc'⟩
  refine ⟨hcanonical, fun values values' b b' henc henc' hlen hlen' => ?_⟩
  obtain ⟨ws, hdec, -, hws⟩ := hcanonical values b henc hlen
  obtain ⟨ws', hdec', -, hws'⟩ := hcanonical values' b' henc' hlen'
  constructor
  · rintro rfl
    exact ⟨ws, hdec, hdec⟩
  · rintro ⟨typed, h, h'⟩
    obtain rfl : ws = typed := Except.ok.inj (hdec.symm.trans h)
    obtain rfl : ws' = ws := Except.ok.inj (hdec'.symm.trans h')
    exact Except.ok.inj (hws.symm.trans hws')

theorem encode_canonical_literals :
    let types := [ParamType.bool, .bytes32, .array (.int 16)]
    let values (literal : String) := [Value.uint 7, .bytes [0xab], .array [.string literal, .uint 2]]
    let b (n : Nat) := bigEndian wordSize 1 ++ (0xab :: zeros 31) ++ bigEndian wordSize 96 ++
      bigEndian wordSize 2 ++ bigEndian wordSize n ++ bigEndian wordSize 2
    ((∀ t ∈ types, t.WellFormed ∧ t.FunctionFree) ∧ encode types (values "-0x1") = .ok (b (2 ^ 256 - 1)) ∧
      encode types (values "0x1f") = .ok (b 31) ∧ (b (2 ^ 256 - 1)).length < 2 ^ 63 ∧ (b 31).length < 2 ^ 63) ∧
    (∃ typed, decode types (b 31) = .ok typed ∧ List.Forall₂ Typed types typed ∧
      encode types typed = .ok (b 31)) ∧
    ¬ ∃ typed, decode types (b (2 ^ 256 - 1)) = .ok typed ∧ decode types (b 31) = .ok typed := by
  intro types values b
  have htypes : ∀ t ∈ types, t.WellFormed ∧ t.FunctionFree := by
    simp [types, ParamType.WellFormed, ParamType.FunctionFree, ParamType.IsWidth]
  have hminus : encode types (values "-0x1") = .ok (b (2 ^ 256 - 1)) := eq_ok_of_toOption (by decide +kernel)
  have hplus : encode types (values "0x1f") = .ok (b 31) := eq_ok_of_toOption (by decide +kernel)
  have hlen : (b (2 ^ 256 - 1)).length < 2 ^ 63 := by decide +kernel
  have hlen' : (b 31).length < 2 ^ 63 := by decide +kernel
  have hne : b (2 ^ 256 - 1) ≠ b 31 := by decide +kernel
  refine ⟨⟨htypes, hminus, hplus, hlen, hlen'⟩, (encode_canonical types htypes).1 _ _ hplus hlen', fun h => hne ?_⟩
  exact ((encode_canonical types htypes).2 _ _ _ _ hminus hplus hlen hlen').mpr h

end Calldata
