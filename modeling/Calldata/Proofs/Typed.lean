import Calldata.Proofs.Layout
import Mathlib.Data.List.Forall2

/-!
# Values in the form of their type

A value of this form has an encoding, whose length can be told without encoding it. Literals and
other stand-ins are left out here: they are encoded too, but nothing decodes to them.
-/

namespace Calldata

/-- The value is made like the type: an integer in the range of its width, a byte string of the
length of its type, as many items as a fixed array asks for. -/
def Typed : ParamType → Value → Prop
  | .int bits, .int v => -(2 ^ (bits - 1)) ≤ v.toInt ∧ v.toInt < 2 ^ (bits - 1)
  | .uint bits, .uint w => w.toNat < 2 ^ bits
  | .bool, .bool _ => True
  | .identifier k, .identifier l _ => l = k
  | .bytes32, .bytes bs => bs.length = wordSize
  | .function, .bytes bs => bs.length = functionSize
  | .bytes, .bytes _ => True
  | .string, .string _ => True
  | .fixedArray elem n, .array items => items.length = n ∧ ∀ v ∈ items, Typed elem v
  | .array elem, .array items => ∀ v ∈ items, Typed elem v
  | _, _ => False

/-- The number of bytes that a value of the type is encoded as. -/
def encodedSize : ParamType → Value → Nat
  | .bytes, .bytes bs => wordSize * blobWords bs.length
  | .string, .string s => wordSize * blobWords (Text.utf8 s).length
  | .fixedArray elem _, .array items => (items.map fun v => elem.offsetSize + encodedSize elem v).sum
  | .array elem, .array items =>
    wordSize + (items.map fun v => elem.offsetSize + encodedSize elem v).sum
  | _, _ => wordSize

/-- The number of bytes that values of these types are encoded as. -/
def encodedSizes (types : List ParamType) (values : List Value) : Nat :=
  ((types.zip values).map fun (t, v) => t.offsetSize + encodedSize t v).sum

variable {t elem : ParamType} {ts : List ParamType} {v : Value} {vs items : List Value} {e b : Bytes}
  {ps : List Tuple.Part} {next n : Nat}

@[simp] theorem encodedSizes_nil : encodedSizes [] vs = 0 := rfl

@[simp] theorem encodedSizes_cons :
    encodedSizes (t :: ts) (v :: vs) = t.offsetSize + encodedSize t v + encodedSizes ts vs := by
  simp [encodedSizes]

theorem encodedSizes_replicate :
    encodedSizes (List.replicate items.length elem) items =
      (items.map fun v => elem.offsetSize + encodedSize elem v).sum := by
  induction items with
  | nil => rfl
  | cons v items ih =>
    rw [List.length_cons, List.replicate_succ, encodedSizes_cons, ih, List.map_cons, List.sum_cons]

theorem forall_replicate {P : ParamType → Value → Prop} :
    List.Forall₂ P (List.replicate n elem) items ↔ items.length = n ∧ ∀ v ∈ items, P elem v := by
  induction items generalizing n with
  | nil => cases n <;> simp [List.replicate_succ]
  | cons v items ih =>
    cases n with
    | zero => simp
    | succ n => simp [List.replicate_succ, ih, and_left_comm]

theorem typed_fixedArray_iff :
    Typed (.fixedArray elem n) v ↔
      ∃ items, v = .array items ∧ items.length = n ∧ List.Forall₂ Typed (List.replicate n elem) items := by
  cases v with
  | array items =>
    simp only [Typed, Value.array.injEq, exists_eq_left', forall_replicate]
    exact ⟨fun h => ⟨h.1, h⟩, fun h => h.2⟩
  | _ => simp [Typed]

theorem typed_array_iff :
    Typed (.array elem) v ↔
      ∃ items, v = .array items ∧ List.Forall₂ Typed (List.replicate items.length elem) items := by
  cases v with
  | array items => simp [Typed, forall_replicate]
  | _ => simp [Typed]

/-! ## Scalars -/

theorem padRight_of_length_eq {bs : Bytes} (h : bs.length = wordSize) : padRight wordSize bs = bs := by
  simp [padRight, zeros, h]

theorem identifierOfWord_padLeft {k : IdKind} (id : Identifier k) :
    Scalar.identifierOfWord k (wordOfBytes (padLeft wordSize id.bytes)) = id := by
  obtain ⟨bs, hlen⟩ := id
  have hpad : (padLeft wordSize bs).length = wordSize := length_padLeft (hlen ▸ k.size_le_wordSize)
  simp only [Scalar.identifierOfWord, wordBytes_wordOfBytes hpad, Identifier.mk.injEq]
  simp [padLeft, hlen]

theorem encodeValue_scalar (ht : t.isScalar = true) (hw : t.WellFormed) (hv : Typed t v) :
    ∃ w, encodeValue t v = .ok (wordBytes w) ∧ t.valueOfWord w = v := by
  unfold Typed at hv
  split at hv
  · rename_i bits i
    obtain ⟨h8, h256, -⟩ := id hw
    have hfits : i.fits bits = true := (Signed.fits_iff (by omega) h256).mpr hv
    refine ⟨i.toTwosComplement, Scalar.encodeInt_iff.mpr ⟨hw, i, rfl, hfits, rfl⟩, ?_⟩
    rw [ParamType.valueOfWord, Signed.ofTwosComplement_toTwosComplement (Signed.fits_word hfits)]
  · rename_i bits w
    exact ⟨w, Scalar.encodeUint_iff.mpr ⟨hw, .of w false, rfl, rfl, hv, rfl⟩, rfl⟩
  · rename_i b
    refine ⟨if b then 1 else 0, Scalar.encodeBool_iff.mpr ⟨b, rfl, rfl⟩, ?_⟩
    cases b <;> rfl
  · rename_i k l id
    subst hv
    have hpad : (padLeft wordSize id.bytes).length = wordSize :=
      length_padLeft (id.length_bytes ▸ l.size_le_wordSize)
    refine ⟨wordOfBytes (padLeft wordSize id.bytes), Scalar.encodeIdentifier_iff.mpr ⟨id, ?_, ?_⟩, ?_⟩
    · simp [Scalar.identifierOf]
    · exact (wordBytes_wordOfBytes hpad).symm
    · rw [ParamType.valueOfWord, identifierOfWord_padLeft]
  · rename_i bs
    refine ⟨wordOfBytes bs, Scalar.encodeBytes32_iff.mpr ⟨bs, rfl, Nat.le_of_eq hv, fun _ => hv, ?_⟩, ?_⟩
    · rw [wordBytes_wordOfBytes hv, padRight_of_length_eq hv]
    · simp only [ParamType.valueOfWord, wordBytes_wordOfBytes hv]
  all_goals simp_all [ParamType.isScalar]

/-! ## How values are encoded -/

theorem bytes_of_typed (hv : Typed .bytes v) (h : encodeValue .bytes v = .ok e) :
    ∃ bs, v = .bytes bs ∧ Payload.encodeBlob bs = e := by
  cases v with
  | bytes bs => exact ⟨bs, rfl, Except.ok.inj h⟩
  | _ => exact hv.elim

theorem string_of_typed (hv : Typed .string v) (h : encodeValue .string v = .ok e) :
    ∃ s, v = .string s ∧ Payload.encodeBlob (Text.utf8 s) = e := by
  cases v with
  | string s => exact ⟨s, rfl, Except.ok.inj h⟩
  | _ => exact hv.elim

theorem fixedArray_of_typed (hv : Typed (.fixedArray elem n) v)
    (h : encodeValue (.fixedArray elem n) v = .ok e) :
    ∃ items, v = .array items ∧ items.length = n ∧
      List.Forall₂ Typed (List.replicate items.length elem) items ∧
      encode (List.replicate items.length elem) items = .ok e := by
  obtain ⟨items, rfl, rfl, hitems⟩ := typed_fixedArray_iff.mp hv
  obtain ⟨items', hi, -, henc⟩ := encode_fixedArray_iff.mp h
  obtain rfl := Value.array.inj hi
  exact ⟨items, rfl, rfl, hitems, henc⟩

theorem array_of_typed (hv : Typed (.array elem) v) (h : encodeValue (.array elem) v = .ok e) :
    ∃ items b, v = .array items ∧ List.Forall₂ Typed (List.replicate items.length elem) items ∧
      encode (List.replicate items.length elem) items = .ok b ∧
      e = bigEndian wordSize items.length ++ b := by
  obtain ⟨items, rfl, hitems⟩ := typed_array_iff.mp hv
  obtain ⟨items', b, hi, henc, he⟩ := encode_array_iff.mp h
  obtain rfl := Value.array.inj hi
  exact ⟨items, b, rfl, hitems, henc, he⟩

/-! ## Lengths -/

theorem length_encodeBlob (bs : Bytes) : (Payload.encodeBlob bs).length = wordSize * blobWords bs.length := by
  simp only [Payload.encodeBlob, List.length_append, length_bigEndian, length_zeros, blobWords, wordsFor,
    wordSize]
  omega

theorem encodedSize_scalar (ht : t.isScalar = true ∨ t = .function) : encodedSize t v = wordSize := by
  cases t <;> first | rfl | simp [ParamType.isScalar] at ht

theorem length_fields (ht : ∀ t ∈ ts, ∀ v e, Typed t v → encodeValue t v = .ok e →
      e.length = encodedSize t v) (hv : List.Forall₂ Typed ts vs) (h : Parts ts vs ps) :
    (Tuple.head next ps).length + (Tuple.tail ps).length = encodedSizes ts vs := by
  induction h generalizing next with
  | nil => rfl
  | @cons t v e ts vs ps first rest ih =>
    obtain ⟨hv, hvs⟩ := List.forall₂_cons.mp hv
    have hlen := ht t List.mem_cons_self v e hv first
    have hrest (next : Nat) : (Tuple.head next ps).length + _ = _ :=
      ih (fun u hu => ht u (List.mem_cons_of_mem t hu)) hvs
    rw [encodedSizes_cons, ParamType.offsetSize]
    cases hd : t.isDynamic with
    | true =>
      have := hrest (next + e.length)
      rw [head_dynamic hd, tail_dynamic hd, List.length_append, List.length_append, length_bigEndian,
        if_pos rfl]
      omega
    | false =>
      have := hrest next
      rw [head_static hd, tail_static hd, List.length_append, if_neg (by simp)]
      omega

theorem length_items (ht : ∀ v e, Typed elem v → encodeValue elem v = .ok e →
      e.length = encodedSize elem v) (hv : List.Forall₂ Typed (List.replicate items.length elem) items)
    (h : encode (List.replicate items.length elem) items = .ok b) :
    b.length = (items.map fun v => elem.offsetSize + encodedSize elem v).sum := by
  obtain ⟨-, ps, hps, rfl⟩ := encode_ok_iff.mp h
  rw [Tuple.layOut, List.length_append, ← encodedSizes_replicate]
  exact length_fields (ParamType.forall_items ht) hv hps

theorem length_of_typed (hv : Typed t v) (h : encodeValue t v = .ok e) : e.length = encodedSize t v := by
  induction t using ParamType.codecInduction generalizing v e with
  | scalar t ht => rw [length_word_of_ok (.inl ht) h, encodedSize_scalar (.inl ht)]
  | function => rw [length_word_of_ok (.inr rfl) h, encodedSize_scalar (.inr rfl)]
  | bytes =>
    obtain ⟨bs, rfl, rfl⟩ := bytes_of_typed hv h
    exact length_encodeBlob bs
  | string =>
    obtain ⟨s, rfl, rfl⟩ := string_of_typed hv h
    exact length_encodeBlob (Text.utf8 s)
  | fixedArray elem n ih =>
    obtain ⟨items, rfl, rfl, hitems, henc⟩ := fixedArray_of_typed hv h
    exact length_items (fun _ _ => ih) hitems henc
  | array elem ih =>
    obtain ⟨items, b, rfl, hitems, henc, he⟩ := array_of_typed hv h
    rw [he, List.length_append, length_bigEndian, length_items (fun _ _ => ih) hitems henc]
    rfl

theorem length_layOut (hv : List.Forall₂ Typed ts vs) (h : Parts ts vs ps) :
    (Tuple.layOut ps).length = encodedSizes ts vs := by
  rw [Tuple.layOut, List.length_append]
  exact length_fields (fun _ _ _ _ => length_of_typed) hv h

/-! ## Encodings exist -/

theorem encodes_fields (ht : ∀ t ∈ ts, ∀ v, Typed t v → encodedSize t v ≤ maxSize →
      ∃ e, encodeValue t v = .ok e) (hv : List.Forall₂ Typed ts vs)
    (hsize : encodedSizes ts vs ≤ maxSize) : ∃ b, encode ts vs = .ok b := by
  have hparts : ∃ ps, Parts ts vs ps := by
    induction hv with
    | nil => exact ⟨[], .nil⟩
    | @cons t v ts vs hv hvs ih =>
      rw [encodedSizes_cons] at hsize
      obtain ⟨e, he⟩ := ht t List.mem_cons_self v hv (by omega)
      obtain ⟨ps, hps⟩ := ih (fun u hu => ht u (List.mem_cons_of_mem t hu)) (by omega)
      exact ⟨⟨t.slot, e⟩ :: ps, .cons he hps⟩
  obtain ⟨ps, hps⟩ := hparts
  -- The head is a part of what fits.
  have hlen := length_layOut hv hps
  rw [Tuple.layOut, List.length_append, length_head hps] at hlen
  exact ⟨Tuple.layOut ps, encode_ok_iff.mpr ⟨by omega, ps, hps, rfl⟩⟩

theorem encodes_items (ht : ∀ v, Typed elem v → encodedSize elem v ≤ maxSize →
      ∃ e, encodeValue elem v = .ok e) (hv : List.Forall₂ Typed (List.replicate items.length elem) items)
    (hsize : (items.map fun v => elem.offsetSize + encodedSize elem v).sum ≤ maxSize) :
    ∃ b, encode (List.replicate items.length elem) items = .ok b := by
  rw [← encodedSizes_replicate] at hsize
  exact encodes_fields (ParamType.forall_items ht) hv hsize

/-- A value in the form of its type can be encoded when its encoding is not too long to be named. -/
theorem encodes (hw : t.WellFormed) (hv : Typed t v) (hsize : encodedSize t v ≤ maxSize) :
    ∃ e, encodeValue t v = .ok e := by
  induction t using ParamType.codecInduction generalizing v with
  | scalar t ht =>
    obtain ⟨w, he, -⟩ := encodeValue_scalar ht hw hv
    exact ⟨wordBytes w, he⟩
  | function =>
    cases v with
    | bytes bs => exact ⟨padRight wordSize bs, Scalar.encodeFunction_iff.mpr ⟨bs, rfl, hv, rfl⟩⟩
    | _ => exact hv.elim
  | bytes =>
    cases v with
    | bytes bs => exact ⟨Payload.encodeBlob bs, rfl⟩
    | _ => exact hv.elim
  | string =>
    cases v with
    | string s => exact ⟨Payload.encodeBlob (Text.utf8 s), rfl⟩
    | _ => exact hv.elim
  | fixedArray elem n ih =>
    obtain ⟨items, rfl, rfl, hitems⟩ := typed_fixedArray_iff.mp hv
    obtain ⟨b, hb⟩ := encodes_items (fun _ => ih hw.1) hitems hsize
    exact ⟨b, encode_fixedArray_iff.mpr ⟨items, rfl, rfl, hb⟩⟩
  | array elem ih =>
    obtain ⟨items, rfl, hitems⟩ := typed_array_iff.mp hv
    obtain ⟨b, hb⟩ := encodes_items (fun _ => ih hw) hitems (by rw [encodedSize] at hsize; omega)
    exact ⟨bigEndian wordSize items.length ++ b, encode_array_iff.mpr ⟨items, b, rfl, hb, rfl⟩⟩

end Calldata
