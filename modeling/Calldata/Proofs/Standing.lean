import Calldata.Proofs.Spans
import Calldata.Proofs.Typed

/-!
# Encodings that stand in data

An encoding is decoded wherever it stands, since its offsets are counted from its own start.
-/

namespace Calldata

variable {data e : Bytes} {t elem : ParamType} {ts : List ParamType} {v : Value} {vs items : List Value}
  {slot : Slot} {ps : List Tuple.Part} {o base cursor next : Nat}

/-- The parts stand in the data: their slots from `cursor` on, and what the offsets lead to from
`base + next` on. -/
structure Laid (data : Bytes) (base cursor next : Nat) (ps : List Tuple.Part) : Prop where
  head : Holds data cursor (Tuple.head next ps)
  tail : Holds data (base + next) (Tuple.tail ps)
  apart : cursor + (Tuple.head next ps).length ≤ base + next

/-! ## One field -/

theorem Laid.dynamic (hd : slot.dynamic = true) (h : Laid data base cursor next (⟨slot, e⟩ :: ps)) :
    Holds data cursor (bigEndian wordSize next) ∧ Holds data (base + next) e ∧
      cursor + wordSize ≤ base + next ∧ Laid data base (cursor + wordSize) (next + e.length) ps := by
  obtain ⟨hhead, htail, hapart⟩ := h
  rw [head_dynamic hd] at hhead hapart
  rw [tail_dynamic hd] at htail
  obtain ⟨hword, hhead⟩ := holds_append.mp hhead
  obtain ⟨he, htail⟩ := holds_append.mp htail
  rw [length_bigEndian] at hhead
  rw [List.length_append, length_bigEndian] at hapart
  rw [Nat.add_assoc] at htail
  exact ⟨hword, he, by omega, hhead, htail, by omega⟩

theorem Laid.static (hd : slot.dynamic = false) (h : Laid data base cursor next (⟨slot, e⟩ :: ps)) :
    Holds data cursor e ∧ Laid data base (cursor + e.length) next ps := by
  obtain ⟨hhead, htail, hapart⟩ := h
  rw [head_static hd] at hhead hapart
  rw [tail_static hd] at htail
  obtain ⟨he, hhead⟩ := holds_append.mp hhead
  rw [List.length_append] at hapart
  exact ⟨he, hhead, htail, by omega⟩

theorem laid_layOut (hps : Parts ts vs ps) (h : Holds data o (Tuple.layOut ps)) :
    Laid data o o (Tuple.headSize (ts.map ParamType.slot)) ps := by
  rw [Tuple.layOut, hps.slots] at h
  obtain ⟨hhead, htail⟩ := holds_append.mp h
  rw [length_head hps] at htail
  exact ⟨hhead, htail, Nat.le_of_eq (by rw [length_head hps])⟩

theorem size_of_holds (hmax : data.length ≤ maxSize) (h : Holds data cursor (bigEndian wordSize next))
    (hnext : next ≤ maxSize) : Payload.size data cursor = .ok next := by
  have hle := h.le
  rw [length_bigEndian] at hle
  exact Payload.size_ok_iff.mpr ⟨hnext, by omega, h⟩

/-! ## Decoding -/

theorem runs_fields (hmax : data.length ≤ maxSize)
    (ht : ∀ t ∈ ts, ∀ v e p, Typed t v → encodeValue t v = .ok e → Holds data p e →
      ∃ n, Runs (decodeAt data t p) (.ok v) n)
    (hv : List.Forall₂ Typed ts vs) (hps : Parts ts vs ps) (h : Laid data base cursor next ps) :
    ∃ n, Runs (decodeFields data base cursor ts) (.ok vs) n := by
  induction hps generalizing cursor next with
  | nil => exact ⟨0, runs_pure []⟩
  | @cons t v e ts vs ps first rest ih =>
    obtain ⟨hv, hvs⟩ := List.forall₂_cons.mp hv
    have hrest (cursor next : Nat) (h : Laid data base cursor next ps) :=
      ih (fun u hu => ht u (List.mem_cons_of_mem t hu)) hvs h
    cases hd : t.isDynamic with
    | true =>
      obtain ⟨hword, he, -, hlaid⟩ := h.dynamic hd
      have hle := he.le
      have hplace : Tuple.place data base cursor t.slot = .ok (base + next) :=
        (place_dynamic_iff hd).mpr ⟨next, size_of_holds hmax hword (by omega), by omega, rfl⟩
      obtain ⟨i, hi⟩ := ht t List.mem_cons_self v e _ hv first he
      obtain ⟨j, hj⟩ := hrest _ _ hlaid
      rw [← ParamType.headSize_of_isDynamic hd] at hj
      exact ⟨i + j, runs_cons_iff.mpr ⟨v, vs, i, j, runs_field_iff.mpr ⟨_, hplace, hi⟩, hj, rfl, rfl⟩⟩
    | false =>
      obtain ⟨he, hlaid⟩ := h.static hd
      have hplace : Tuple.place data base cursor t.slot = .ok cursor := (place_static_iff hd).mpr rfl
      obtain ⟨i, hi⟩ := ht t List.mem_cons_self v e _ hv first he
      obtain ⟨j, hj⟩ := hrest _ _ hlaid
      rw [length_of_static hd first] at hj
      exact ⟨i + j, runs_cons_iff.mpr ⟨v, vs, i, j, runs_field_iff.mpr ⟨_, hplace, hi⟩, hj, rfl, rfl⟩⟩

theorem runs_items (hmax : data.length ≤ maxSize)
    (ht : ∀ v e p, Typed elem v → encodeValue elem v = .ok e → Holds data p e →
      ∃ n, Runs (decodeAt data elem p) (.ok v) n)
    (hv : List.Forall₂ Typed (List.replicate items.length elem) items)
    (henc : encode (List.replicate items.length elem) items = .ok e) (h : Holds data o e) :
    Payload.checkRoom elem.headSize items.length data o = .ok () ∧
      ∃ n, Runs (decodeFields data o o (List.replicate items.length elem)) (.ok items) n := by
  obtain ⟨-, ps, hps, rfl⟩ := encode_ok_iff.mp henc
  have hlaid := laid_layOut hps h
  -- The head alone has a slot for each item.
  refine ⟨?_, runs_fields hmax (ParamType.forall_items ht) hv hps hlaid⟩
  have hle := hlaid.head.le
  rw [length_head hps, headSize_replicate, Nat.mul_comm] at hle
  exact Payload.checkRoom_ok_iff.mpr (by omega)

theorem blob_of_holds {bs : Bytes} (hmax : data.length ≤ maxSize) (h : Holds data o (Payload.encodeBlob bs)) :
    Payload.blob data o = .ok bs := by
  have hb := (holds_append.mp h).1
  have hle := hb.le
  rw [List.length_append, length_bigEndian] at hle
  exact Payload.blob_ok_iff.mpr ⟨by omega, hb⟩

theorem count_le (hw : elem.WellFormed)
    (henc : encode (List.replicate items.length elem) items = .ok e) : items.length ≤ maxSize := by
  obtain ⟨hmax, -⟩ := encode_ok_iff.mp henc
  have hroom := ParamType.wordSize_le_headSize hw
  rw [headSize_replicate] at hmax
  exact Nat.le_trans (Nat.le_mul_of_pos_right _ (by simp only [wordSize] at hroom; omega)) hmax

/-- What was encoded is decoded where it stands. -/
theorem runs_of_holds (hmax : data.length ≤ maxSize) (hw : t.WellFormed) (hf : t.FunctionFree)
    (hv : Typed t v) (he : encodeValue t v = .ok e) (h : Holds data o e) :
    ∃ n, Runs (decodeAt data t o) (.ok v) n := by
  induction t using ParamType.codecInduction generalizing v e o with
  | scalar t ht =>
    obtain ⟨w, hword, rfl⟩ := encodeValue_scalar ht hw hv
    obtain rfl : wordBytes w = e := Except.ok.inj (hword.symm.trans he)
    have hle := h.le
    rw [length_wordBytes] at hle
    exact ⟨1, (runs_scalar_iff ht).mpr ⟨w, Payload.word_ok_iff.mpr ⟨by omega, h⟩, rfl, rfl⟩⟩
  | function => exact hf.elim
  | bytes =>
    obtain ⟨bs, rfl, rfl⟩ := bytes_of_typed hv he
    exact ⟨_, runs_bytes_iff.mpr ⟨bs, blob_of_holds hmax h, rfl, rfl⟩⟩
  | string =>
    obtain ⟨s, rfl, rfl⟩ := string_of_typed hv he
    exact ⟨_, runs_string_iff.mpr ⟨s, Payload.text_ok_iff.mpr (blob_of_holds hmax h), rfl, rfl⟩⟩
  | fixedArray elem n ih =>
    obtain ⟨items, rfl, rfl, hitems, henc⟩ := fixedArray_of_typed hv he
    obtain ⟨hroom, n, hn⟩ := runs_items hmax (fun _ _ _ => ih hw.1 hf) hitems henc h
    exact ⟨n, runs_fixedArray_iff.mpr ⟨hroom, items, hn, rfl⟩⟩
  | array elem ih =>
    have helem : elem.WellFormed := hw
    obtain ⟨items, b, rfl, hitems, henc, heq⟩ := array_of_typed hv he
    rw [heq] at h
    obtain ⟨hcount, hb⟩ := holds_append.mp h
    rw [length_bigEndian] at hb
    obtain ⟨hroom, n, hn⟩ := runs_items hmax (fun _ _ _ => ih helem hf) hitems henc hb
    have hsize : Payload.size data o = .ok items.length := size_of_holds hmax hcount (count_le helem henc)
    exact ⟨1 + n, runs_array_iff.mpr ⟨items.length, items, n, hsize, hroom, hn, rfl, rfl⟩⟩

end Calldata
