import Calldata.Codec.Machine
import Calldata.ParamType.Parser
import Calldata.Proofs.Safety
import Calldata.Proofs.Typed
import Calldata.Proofs.Budget

/-!
# Offsets on a machine

How the encoder of a machine, which runs, and the one without a bound agree. A fixed array may ask for
almost all room there is and be given nothing: the heads just fit then, and the first offsets behind
them do not. In every other case the two encoders agree.
-/

namespace Calldata

/-! ## Values in memory -/

namespace Value

mutual

/-- The bytes that a value takes in memory at least: a machine word, and what it holds. -/
def room : Value → Nat
  | bytes bs => 8 + bs.length
  | string s => 8 + (Text.utf8 s).length
  | array items => 8 + rooms items
  | _ => 8

/-- The bytes that some values take in memory at least. -/
def rooms : List Value → Nat
  | [] => 0
  | v :: vs => v.room + rooms vs

end

end Value

open Guarded (plain)

variable {t elem : ParamType} {ts : List ParamType} {v : Value} {vs items : List Value} {e b bs : Bytes}
  {ps : List Tuple.Part} {next n : Nat} {cs : List (Slot × Except Fault Bytes)}

/-! ## Encodings are not much larger than values -/

theorem Value.room_pos (v : Value) : 8 ≤ v.room := by
  cases v <;> simp [room]

theorem Value.room_le_rooms (hv : v ∈ vs) : v.room ≤ rooms vs := by
  induction vs with
  | nil => simp at hv
  | cons w vs ih =>
    rw [rooms]
    rcases List.mem_cons.mp hv with rfl | hv
    · omega
    · have := ih hv
      omega

theorem Value.length_le_rooms (vs : List Value) : 8 * vs.length ≤ rooms vs := by
  induction vs with
  | nil => simp [rooms]
  | cons v vs ih =>
    have := v.room_pos
    rw [List.length_cons, rooms]
    omega

theorem Hex.length_pairs {position : Nat} {digits : Bytes} (h : pairs position digits = .ok bs) :
    bs.length ≤ digits.length := by
  fun_induction pairs position digits generalizing bs with
  | case1 position high low rest ih =>
    obtain ⟨a, -, h⟩ := bind_ok_iff.mp h
    obtain ⟨b, -, h⟩ := bind_ok_iff.mp h
    obtain ⟨bytes, hrest, h⟩ := bind_ok_iff.mp h
    have hlen := ih hrest
    rw [← Except.ok.inj h, List.length_cons, List.length_cons, List.length_cons]
    omega
  | case2 =>
    obtain rfl := Except.ok.inj h
    simp

theorem Hex.length_ofText {s : String} (h : ofText s = .ok bs) : bs.length ≤ (Text.utf8 s).length := by
  have hunmarked (digits : Bytes) : (unmarked digits).length ≤ digits.length := by
    unfold unmarked
    split <;> simp
    omega
  unfold ofText decode at h
  split at h
  · simp at h
  · exact Nat.le_trans (length_pairs h) (hunmarked _)

theorem room_of_dynamicBytes (h : dynamicBytesOf v = .ok bs) : 8 + bs.length ≤ v.room := by
  cases v with
  | bytes data =>
    obtain rfl := Except.ok.inj h
    exact Nat.le_refl _
  | string s =>
    simp only [dynamicBytesOf, Scalar.bytesOfText] at h
    split at h
    · rename_i data hdata
      obtain rfl := Except.ok.inj h
      have := Hex.length_ofText hdata
      rw [Value.room]
      omega
    · simp at h
  | _ => simp [dynamicBytesOf] at h

theorem room_of_text {s : String} (h : textOf v = .ok s) : 8 + (Text.utf8 s).length ≤ v.room := by
  cases v with
  | string s' =>
    obtain rfl := Except.ok.inj h
    exact Nat.le_refl _
  | _ => simp [textOf] at h

theorem length_blob_le (h : 8 + bs.length ≤ n) : (Payload.encodeBlob bs).length + wordSize ≤ 12 * n := by
  rw [length_encodeBlob]
  simp only [blobWords, wordsFor, wordSize]
  omega

theorem length_parts_le (ht : ∀ t ∈ ts, ∀ v e, encodeValue t v = .ok e → e.length + wordSize ≤ 12 * v.room)
    (h : Parts ts vs ps) : (Tuple.head next ps).length + (Tuple.tail ps).length ≤ 12 * Value.rooms vs := by
  induction h generalizing next with
  | nil => simp [Tuple.head, Tuple.tail, Value.rooms]
  | @cons t v e ts vs ps first rest ih =>
    have hfirst := ht t List.mem_cons_self v e first
    have hrest (next : Nat) : (Tuple.head next ps).length + (Tuple.tail ps).length ≤ 12 * Value.rooms vs :=
      ih fun u hu => ht u (List.mem_cons_of_mem t hu)
    rw [Value.rooms]
    cases hd : t.isDynamic with
    | true =>
      have := hrest (next + e.length)
      rw [head_dynamic hd, tail_dynamic hd, List.length_append, List.length_append, length_bigEndian]
      omega
    | false =>
      have := hrest next
      rw [head_static hd, tail_static hd, List.length_append]
      omega

theorem length_encode_le (ht : ∀ t ∈ ts, ∀ v e, encodeValue t v = .ok e → e.length + wordSize ≤ 12 * v.room)
    (h : encode ts vs = .ok b) : b.length ≤ 12 * Value.rooms vs := by
  obtain ⟨-, ps, hps, rfl⟩ := encode_ok_iff.mp h
  rw [Tuple.layOut, List.length_append]
  exact length_parts_le ht hps

theorem length_word_le (ht : t.isScalar = true ∨ t = .function) (h : encodeValue t v = .ok e) :
    e.length + wordSize ≤ 12 * v.room := by
  have := v.room_pos
  rw [length_word_of_ok ht h]
  simp only [wordSize]
  omega

theorem length_add_le (h : encodeValue t v = .ok e) : e.length + wordSize ≤ 12 * v.room := by
  induction t using ParamType.codecInduction generalizing v e with
  | scalar t ht => exact length_word_le (.inl ht) h
  | function => exact length_word_le (.inr rfl) h
  | bytes =>
    obtain ⟨bs, hbs, rfl⟩ := map_ok_iff.mp h
    exact length_blob_le (room_of_dynamicBytes hbs)
  | string =>
    obtain ⟨s, hs, rfl⟩ := map_ok_iff.mp h
    exact length_blob_le (room_of_text hs)
  | fixedArray elem n ih =>
    obtain ⟨items, rfl, -, henc⟩ := encode_fixedArray_iff.mp h
    have := length_encode_le (ParamType.forall_items fun v e h => ih h) henc
    rw [Value.room]
    simp only [wordSize]
    omega
  | array elem ih =>
    obtain ⟨items, b, rfl, henc, he⟩ := encode_array_iff.mp h
    have := length_encode_le (ParamType.forall_items fun v e h => ih h) henc
    rw [he, List.length_append, length_bigEndian, Value.room]
    simp only [wordSize]
    omega

/-! ## Tuples -/

/-- The tail of a tuple as far as it is laid out before the first fault. -/
def Tuple.begun : List (Slot × Except Fault Bytes) → Bytes
  | (slot, .ok e) :: rest => (if slot.dynamic then e else []) ++ begun rest
  | _ => []

/-- The encoder of a machine stops at an offset behind `headSize` bytes of heads and at most `tailSize`
bytes of the tail. -/
def TooFar (headSize tailSize : Nat) (g : Except Stop Bytes) : Prop :=
  ∃ n, g = .error (.trap (.overflow headSize n)) ∧ maxSize < headSize + n ∧ n ≤ tailSize

theorem begun_of_parts (h : Tuple.parts cs = .ok ps) : Tuple.begun cs = Tuple.tail ps := by
  fun_induction Tuple.parts cs generalizing ps with
  | case1 =>
    obtain rfl := Except.ok.inj h
    rfl
  | case2 => simp at h
  | case3 slot e rest ih =>
    obtain ⟨qs, hqs, rfl⟩ := map_ok_iff.mp h
    rw [Tuple.begun, ih hqs]
    cases hd : slot.dynamic with
    | true => rw [tail_dynamic hd, if_pos rfl]
    | false => rw [tail_static hd, if_neg (by simp), List.nil_append]

theorem slots_of_parts (h : Tuple.parts cs = .ok ps) : ps.map (·.slot) = cs.map (·.1) := by
  fun_induction Tuple.parts cs generalizing ps with
  | case1 =>
    obtain rfl := Except.ok.inj h
    rfl
  | case2 => simp at h
  | case3 slot e rest ih =>
    obtain ⟨qs, hqs, rfl⟩ := map_ok_iff.mp h
    rw [List.map_cons, List.map_cons, ih hqs]

theorem headRoom_from (start : Nat) (slots : List Slot) (hstart : start ≤ maxSize) :
    slots.foldlM (fun room slot => Guarded.checkedAdd room slot.size) start =
      if start + Tuple.headSize slots ≤ maxSize then some (start + Tuple.headSize slots) else none := by
  induction slots generalizing start with
  | nil =>
    rw [headSize_nil, Nat.add_zero, if_pos hstart]
    rfl
  | cons slot slots ih =>
    rw [List.foldlM_cons, headSize_cons, ← Nat.add_assoc]
    by_cases hslot : start + slot.size ≤ maxSize
    · rw [checkedAdd_of_le hslot]
      exact ih _ hslot
    · rw [checkedAdd_of_lt (by omega), if_neg (by omega)]
      rfl

theorem headRoom_eq (slots : List Slot) :
    Guarded.headRoom slots = if Tuple.headSize slots ≤ maxSize then some (Tuple.headSize slots) else none := by
  rw [Guarded.headRoom, headRoom_from 0 slots (Nat.zero_le _), Nat.zero_add]

theorem Guarded.encodeFrom_dynamic {headSize : Nat} {head tail : Bytes} {slot : Slot}
    {rest : List (Slot × Except Stop Bytes)} (h : slot.dynamic = true) :
    encodeFrom headSize head tail ((slot, .ok e) :: rest) = (do
      let offset ← add headSize tail.length
      encodeFrom headSize (head ++ bigEndian wordSize offset) (tail ++ e) rest) := by
  change (if slot.dynamic = true then _ else _) = _
  rw [if_pos h]

theorem Guarded.encodeFrom_static {headSize : Nat} {head tail : Bytes} {slot : Slot}
    {rest : List (Slot × Except Stop Bytes)} (h : slot.dynamic = false) :
    encodeFrom headSize head tail ((slot, .ok e) :: rest) = encodeFrom headSize (head ++ e) tail rest := by
  change (if slot.dynamic = true then _ else _) = _
  rw [if_neg (by simp [h])]

/-- The same encodings, on a machine. -/
def Guarded.ofPlain (cs : List (Slot × Except Fault Bytes)) : List (Slot × Except Stop Bytes) :=
  cs.map fun c => (c.1, plain c.2)

/-- Laying out the rest of a tuple goes as without a machine, or stops at an offset behind some of
the tail that is laid out before the first fault. -/
theorem encodeFrom_outcome (headSize : Nat) (head tail : Bytes) (cs : List (Slot × Except Fault Bytes)) :
    Guarded.encodeFrom headSize head tail (Guarded.ofPlain cs) =
      plain ((Tuple.parts cs).map fun ps =>
        head ++ Tuple.head (headSize + tail.length) ps ++ (tail ++ Tuple.tail ps)) ∨
    (∃ c ∈ cs, c.1.dynamic = true) ∧
      TooFar headSize (tail.length + (Tuple.begun cs).length)
        (Guarded.encodeFrom headSize head tail (Guarded.ofPlain cs)) := by
  fun_induction Tuple.parts cs generalizing head tail with
  | case1 =>
    left
    simp [Guarded.ofPlain, Guarded.encodeFrom, Tuple.head, Tuple.tail, Except.map]
  | case2 slot e rest => exact .inl rfl
  | case3 slot e rest ih =>
    change Guarded.encodeFrom headSize head tail ((slot, .ok e) :: Guarded.ofPlain rest) = _ ∨
      _ ∧ TooFar _ _ (Guarded.encodeFrom headSize head tail ((slot, .ok e) :: Guarded.ofPlain rest))
    cases hd : slot.dynamic with
    | false =>
      rw [Guarded.encodeFrom_static hd, Tuple.begun, if_neg (by simp [hd]), List.nil_append]
      refine (ih (head ++ e) tail).imp (fun h => ?_) fun h => ⟨?_, h.2⟩
      · rw [h]
        cases Tuple.parts rest <;> simp [Except.map, head_static hd, tail_static hd]
      · obtain ⟨c, hc, hdyn⟩ := h.1
        exact ⟨c, List.mem_cons_of_mem _ hc, hdyn⟩
    | true =>
      rw [Guarded.encodeFrom_dynamic hd, Tuple.begun, if_pos hd, List.length_append]
      by_cases hfits : headSize + tail.length ≤ maxSize
      · rw [add_of_le hfits]
        refine (ih (head ++ bigEndian wordSize (headSize + tail.length)) (tail ++ e)).imp (fun h => ?_) fun h => ⟨?_, ?_⟩
        · change Guarded.encodeFrom _ _ _ _ = _
          rw [h]
          cases Tuple.parts rest <;> simp [Except.map, head_dynamic hd, tail_dynamic hd, Nat.add_assoc]
        · exact ⟨_, List.mem_cons_self, hd⟩
        · obtain ⟨n, hn, hmax, hle⟩ := h.2
          rw [List.length_append] at hle
          exact ⟨n, hn, hmax, by omega⟩
      · refine .inr ⟨⟨_, List.mem_cons_self, hd⟩, tail.length, ?_, by omega, by omega⟩
        rw [Guarded.add, if_neg hfits]
        rfl

theorem encodeTuple_outcome (cs : List (Slot × Except Fault Bytes)) :
    Guarded.encodeTuple (Guarded.ofPlain cs) = plain (Tuple.encode cs) ∨
    (∃ c ∈ cs, c.1.dynamic = true) ∧
      TooFar (Tuple.headSize (cs.map (·.1))) (Tuple.begun cs).length (Guarded.encodeTuple (Guarded.ofPlain cs)) := by
  have hslots : (Guarded.ofPlain cs).map (·.1) = cs.map (·.1) := by
    rw [Guarded.ofPlain, List.map_map]
    rfl
  rw [Guarded.encodeTuple, Tuple.encode, hslots, headRoom_eq]
  by_cases hmax : Tuple.headSize (cs.map (·.1)) ≤ maxSize
  · rw [if_pos hmax, if_neg (by omega)]
    have hout := encodeFrom_outcome (Tuple.headSize (cs.map (·.1))) [] [] cs
    rw [List.length_nil, Nat.zero_add] at hout
    refine hout.imp (fun h => ?_) id
    change Guarded.encodeFrom _ _ _ _ = _
    rw [h]
    cases hps : Tuple.parts cs with
    | error e => rfl
    | ok ps => simp [Except.map, Tuple.layOut, slots_of_parts hps]
  · rw [if_neg hmax, if_pos (by omega)]
    exact .inl rfl

/-! ## Values -/

theorem length_begun_le : (Tuple.begun (fields ts vs)).length ≤ 12 * Value.rooms vs := by
  induction ts generalizing vs with
  | nil => simp [fields, Tuple.begun]
  | cons t ts ih =>
    cases vs with
    | nil => simp [fields, Tuple.begun]
    | cons v vs =>
      rw [fields_cons]
      cases he : encodeValue t v with
      | error f => simp [Tuple.begun]
      | ok e =>
        have hfirst := length_add_le he
        have hrest : (Tuple.begun (fields ts vs)).length ≤ 12 * Value.rooms vs := ih
        rw [Tuple.begun, Value.rooms, List.length_append]
        split
        · omega
        · rw [List.length_nil]
          omega

theorem ofPlain_fields (ht : ∀ field ∈ ts.zip vs,
      Guarded.encodeValue field.1 field.2 = plain (encodeValue field.1 field.2)) :
    (ts.zip vs).map (fun field => (field.1.slot, Guarded.encodeValue field.1 field.2)) =
      Guarded.ofPlain (fields ts vs) := by
  rw [Guarded.ofPlain, fields, List.map_map]
  refine List.map_congr_left fun field hfield => ?_
  rw [ht field hfield]
  rfl

theorem encode_outcome (ht : ∀ field ∈ ts.zip vs,
      Guarded.encodeValue field.1 field.2 = plain (encodeValue field.1 field.2)) :
    Guarded.encode ts vs = plain (encode ts vs) ∨
    (∃ t ∈ ts, t.isDynamic = true) ∧
      TooFar (Tuple.headSize (ts.map ParamType.slot)) (Tuple.begun (fields ts vs)).length (Guarded.encode ts vs) := by
  by_cases hlen : ts.length = vs.length
  · have hguarded : Guarded.encode ts vs = Guarded.encodeTuple (Guarded.ofPlain (fields ts vs)) := by
      rw [Guarded.encode, if_neg (by simp [hlen]), ofPlain_fields ht]
    rw [hguarded, encode_of_length hlen, ← slots_fields hlen]
    refine (encodeTuple_outcome (fields ts vs)).imp id fun h => ⟨?_, h.2⟩
    obtain ⟨c, hc, hd⟩ := h.1
    obtain ⟨field, hfield, rfl⟩ := List.mem_map.mp hc
    exact ⟨field.1, (List.of_mem_zip hfield).1, hd⟩
  · left
    rw [Guarded.encode, if_pos hlen, encode, if_pos hlen]
    rfl

/-- An encoding that can be named has no offset that is too large, for all of them lead into it. -/
theorem not_tooFar_of_ok {g : Except Stop Bytes} (hlen : b.length ≤ maxSize) (h : encode ts vs = .ok b) :
    ¬ TooFar (Tuple.headSize (ts.map ParamType.slot)) (Tuple.begun (fields ts vs)).length g := by
  rintro ⟨n, -, hmax, hn⟩
  obtain ⟨-, ps, hps, rfl⟩ := encode_ok_iff.mp h
  rw [begun_of_parts ((parts_ok_iff hps.length_eq).mpr hps)] at hn
  rw [Tuple.layOut, List.length_append, length_head hps] at hlen
  omega

/-! ## Encodings that can be named -/

theorem length_part_le (h : Parts ts vs ps) (hfield : (t, v) ∈ ts.zip vs) :
    ∃ e, encodeValue t v = .ok e ∧ e.length ≤ (Tuple.head next ps).length + (Tuple.tail ps).length := by
  induction h generalizing next with
  | nil => simp at hfield
  | @cons u w first ts vs ps hfirst rest ih =>
    rw [List.zip_cons_cons, List.mem_cons] at hfield
    have hrest (next : Nat) (hmem : (t, v) ∈ ts.zip vs) :
        ∃ e, encodeValue t v = .ok e ∧ e.length ≤ (Tuple.head next ps).length + (Tuple.tail ps).length := ih hmem
    cases hd : u.isDynamic with
    | true =>
      rw [head_dynamic hd, tail_dynamic hd, List.length_append, List.length_append]
      rcases hfield with heq | hmem
      · obtain ⟨rfl, rfl⟩ := Prod.mk.inj heq
        exact ⟨first, hfirst, by omega⟩
      · obtain ⟨e, he, hle⟩ := hrest (next + first.length) hmem
        exact ⟨e, he, by omega⟩
    | false =>
      rw [head_static hd, tail_static hd, List.length_append]
      rcases hfield with heq | hmem
      · obtain ⟨rfl, rfl⟩ := Prod.mk.inj heq
        exact ⟨first, hfirst, by omega⟩
      · obtain ⟨e, he, hle⟩ := hrest next hmem
        exact ⟨e, he, by omega⟩

theorem encode_machine_of_ok (ht : ∀ t ∈ ts, ∀ v e, encodeValue t v = .ok e → e.length ≤ maxSize →
      Guarded.encodeValue t v = .ok e) (h : encode ts vs = .ok b) (hlen : b.length ≤ maxSize) :
    Guarded.encode ts vs = .ok b := by
  obtain ⟨-, ps, hps, rfl⟩ := encode_ok_iff.mp h
  have hfields : ∀ field ∈ ts.zip vs,
      Guarded.encodeValue field.1 field.2 = plain (encodeValue field.1 field.2) := by
    rintro ⟨t, v⟩ hfield
    obtain ⟨e, he, hle⟩ := length_part_le hps hfield
    rw [Tuple.layOut, List.length_append] at hlen
    rw [he]
    exact ht t (List.of_mem_zip hfield).1 v e he (Nat.le_trans hle hlen)
  rw [(encode_outcome hfields).resolve_right fun hfar => not_tooFar_of_ok hlen h hfar.2, h]
  rfl

theorem encodeBlob_plain (h : (Payload.encodeBlob bs).length ≤ maxSize) :
    Guarded.encodeBlob bs = .ok (Payload.encodeBlob bs) := by
  rw [length_encodeBlob, blobWords, Nat.mul_add, Nat.mul_one] at h
  have hmul : Guarded.mul (wordsFor bs.length) wordSize = .ok (wordsFor bs.length * wordSize) :=
    if_pos (by rw [Nat.mul_comm]; omega)
  have hadd : wordSize + wordsFor bs.length * wordSize ≤ maxSize := by
    rw [Nat.mul_comm (wordsFor bs.length)]
    omega
  rw [Guarded.encodeBlob, hmul]
  change (Guarded.add _ _ >>= _) = _
  rw [add_of_le hadd]
  change Except.ok _ = _
  rw [Payload.encodeBlob, List.length_append, length_bigEndian, Nat.add_sub_add_left]

theorem encodeValue_plain_of_word (ht : t.isScalar = true ∨ t = .function) :
    Guarded.encodeValue t v = plain (encodeValue t v) := by
  rcases ht with ht | rfl
  · cases t <;> first | rfl | simp [ParamType.isScalar] at ht
  · rfl

theorem encodeTuple_items (items : List Value) :
    Guarded.encodeTuple (items.map fun item => (elem.slot, Guarded.encodeValue elem item)) =
      Guarded.encode (List.replicate items.length elem) items := by
  rw [Guarded.encode, if_neg (by simp), zip_items, List.map_map]
  rfl

/-- What is encoded, and can be named, is encoded so by a machine too. -/
theorem encodeValue_machine_of_ok (h : encodeValue t v = .ok e) (hlen : e.length ≤ maxSize) :
    Guarded.encodeValue t v = .ok e := by
  induction t using ParamType.codecInduction generalizing v e with
  | scalar t ht => rw [encodeValue_plain_of_word (.inl ht), h, Guarded.plain_ok]
  | function => rw [encodeValue_plain_of_word (.inr rfl), h, Guarded.plain_ok]
  | bytes =>
    obtain ⟨bs, hbs, rfl⟩ := map_ok_iff.mp h
    rw [Guarded.encodeValue, hbs]
    exact encodeBlob_plain hlen
  | string =>
    obtain ⟨s, hs, rfl⟩ := map_ok_iff.mp h
    rw [Guarded.encodeValue, hs]
    exact encodeBlob_plain hlen
  | fixedArray elem n ih =>
    obtain ⟨items, rfl, rfl, henc⟩ := encode_fixedArray_iff.mp h
    change (if items.length ≠ items.length then _ else Guarded.encodeTuple _) = _
    rw [if_neg (by simp), encodeTuple_items]
    exact encode_machine_of_ok (ParamType.forall_items fun _ _ he hle => ih he hle) henc hlen
  | array elem ih =>
    obtain ⟨items, b, rfl, henc, he⟩ := encode_array_iff.mp h
    rw [he, List.length_append] at hlen
    change (Guarded.encodeTuple _ >>= _) = _
    rw [encodeTuple_items,
      encode_machine_of_ok (ParamType.forall_items fun _ _ he hle => ih he hle) henc (by omega), he]
    rfl

/-! ## Values in memory that are encoded -/

theorem encode_outcome_of_room (ht : ∀ t ∈ ts, ∀ v ∈ vs, Guarded.encodeValue t v = plain (encodeValue t v))
    (hroom : Value.rooms vs < 2 ^ 60) :
    Guarded.encode ts vs = plain (encode ts vs) ∨
    (∃ t ∈ ts, t.isDynamic = true) ∧ (∃ fault, encode ts vs = .error fault) ∧
      TooFar (Tuple.headSize (ts.map ParamType.slot)) (12 * Value.rooms vs) (Guarded.encode ts vs) := by
  have hfields : ∀ field ∈ ts.zip vs,
      Guarded.encodeValue field.1 field.2 = plain (encodeValue field.1 field.2) := fun field hfield =>
    ht field.1 (List.of_mem_zip hfield).1 field.2 (List.of_mem_zip hfield).2
  refine (encode_outcome hfields).imp id fun ⟨hdynamic, hfar⟩ => ⟨hdynamic, ?_, ?_⟩
  · cases hb : encode ts vs with
    | error fault => exact ⟨fault, rfl⟩
    | ok b =>
      have hlen := length_encode_le (fun _ _ _ _ => length_add_le) hb
      exact (not_tooFar_of_ok (by simp only [maxSize]; omega) hb hfar).elim
  · obtain ⟨n, hn, hmax, hle⟩ := hfar
    exact ⟨n, hn, hmax, Nat.le_trans hle length_begun_le⟩

theorem encode_items_plain (ht : ∀ {v}, v.room < 2 ^ 60 → Guarded.encodeValue elem v = plain (encodeValue elem v))
    (hroom : (Value.array items).room < 2 ^ 60) :
    Guarded.encodeTuple (items.map fun item => (elem.slot, Guarded.encodeValue elem item)) =
      plain (encode (List.replicate items.length elem) items) := by
  rw [Value.room] at hroom
  have hplain : ∀ v ∈ items, Guarded.encodeValue elem v = plain (encodeValue elem v) := fun v hv => by
    have := Value.room_le_rooms hv
    exact ht (by omega)
  rw [encodeTuple_items]
  refine (encode_outcome_of_room (ParamType.forall_items hplain) (by omega)).resolve_right ?_
  rintro ⟨⟨t, hmem, hd⟩, -, n, -, hmax, hn⟩
  obtain rfl := List.eq_of_mem_replicate hmem
  -- Each item takes some room, so there are too few of them for heads of that size.
  have hcount := Value.length_le_rooms items
  rw [headSize_replicate, ParamType.headSize_of_isDynamic hd] at hmax
  simp only [maxSize, wordSize] at hmax
  omega

theorem length_blob_le_maxSize (h : 8 + bs.length ≤ n) (hn : n < 2 ^ 60) :
    (Payload.encodeBlob bs).length ≤ maxSize := by
  have := length_blob_le h
  simp only [maxSize]
  omega

/-- Inside of a value no sum is too large, whatever its type asks for. -/
theorem encodeValue_plain (hroom : v.room < 2 ^ 60) : Guarded.encodeValue t v = plain (encodeValue t v) := by
  induction t using ParamType.codecInduction generalizing v with
  | scalar t ht => exact encodeValue_plain_of_word (.inl ht)
  | function => exact encodeValue_plain_of_word (.inr rfl)
  | bytes =>
    rw [Guarded.encodeValue, encodeValue]
    cases hbs : dynamicBytesOf v with
    | error fault => rfl
    | ok bs => exact encodeBlob_plain (length_blob_le_maxSize (room_of_dynamicBytes hbs) hroom)
  | string =>
    rw [Guarded.encodeValue, encodeValue]
    cases hs : textOf v with
    | error fault => rfl
    | ok s => exact encodeBlob_plain (length_blob_le_maxSize (room_of_text hs) hroom)
  | fixedArray elem n ih =>
    cases v with
    | array items =>
      rw [encodeValue_fixedArray]
      change (if items.length ≠ n then _ else Guarded.encodeTuple _) = _
      split
      · rfl
      · exact encode_items_plain ih hroom
    | _ => rfl
  | array elem ih =>
    cases v with
    | array items =>
      rw [encodeValue_array]
      change (Guarded.encodeTuple _ >>= _) = _
      rw [encode_items_plain ih hroom]
      cases encode (List.replicate items.length elem) items <;> rfl
    | _ => rfl

/-! ## The encoder -/

/-- Of values that take less than `2 ^ 60` bytes: inside of each of them no sum is too large, whatever its
type asks for. Between them, none is unless their heads take more than `2 ^ 62` bytes, and none is when
there is an encoding. What is left is one sum, of such heads and the tail so far, of values that are
refused in the end. -/
theorem encode_guarded (types : List ParamType) (values : List Value) (hroom : Value.rooms values < 2 ^ 60) :
    (∀ t v, v.room ≤ Value.rooms values → Guarded.encodeValue t v = plain (encodeValue t v)) ∧
    (Tuple.headSize (types.map ParamType.slot) ≤ 2 ^ 62 ∨ (∀ t ∈ types, t.isDynamic = false) →
      Guarded.encode types values = plain (encode types values)) ∧
    (∀ b, encode types values = .ok b → Guarded.encode types values = .ok b) ∧
    ∀ cause, Guarded.encode types values = .error (.trap cause) →
      (∃ fault, encode types values = .error fault) ∧
      ∃ n, cause = .overflow (Tuple.headSize (types.map ParamType.slot)) n ∧ n ≤ 12 * Value.rooms values := by
  have hvalue (t : ParamType) (v : Value) (hv : v.room ≤ Value.rooms values) :
      Guarded.encodeValue t v = plain (encodeValue t v) :=
    encodeValue_plain (Nat.lt_of_le_of_lt hv hroom)
  refine ⟨hvalue, ?_⟩
  have hvalues : ∀ t ∈ types, ∀ v ∈ values, Guarded.encodeValue t v = plain (encodeValue t v) :=
    fun t _ v hv => hvalue t v (Value.room_le_rooms hv)
  rcases encode_outcome_of_room hvalues hroom with hplain | ⟨⟨t, ht, hd⟩, ⟨fault, hfault⟩, n, hn, hmax, hle⟩
  · refine ⟨fun _ => hplain, fun b hb => ?_, fun cause hcause => ?_⟩
    · rw [hplain, hb, Guarded.plain_ok]
    · rw [hplain] at hcause
      cases henc : encode types values <;> simp [henc] at hcause
  · refine ⟨fun hsmall => ?_, fun b hb => ?_, fun cause hcause => ?_⟩
    · rcases hsmall with hhead | hstatic
      · simp only [maxSize] at hmax
        omega
      · simp [hstatic t ht] at hd
    · simp [hfault] at hb
    · rw [hn] at hcause
      obtain rfl := Stop.trap.inj (Except.error.inj hcause)
      exact ⟨⟨fault, hfault⟩, n, rfl, hle⟩

/-- Texts in a list inside of another, behind small heads; and heads that just fit, with an array that is
refused for its missing items. -/
theorem encode_guarded_nested :
    let texts := Value.array [.array [.string "far", .string ""], .array []]
    let types := [ParamType.array (.array .string), .uint 8]
    let values := [texts, .uint 7]
    let huge := [ParamType.bytes, .bytes, .fixedArray (.uint 8) 576460752303423485]
    let missing := [Value.bytes [], .bytes [], .array []]
    (Value.rooms values < 2 ^ 60 ∧ texts.room ≤ Value.rooms values ∧
      Tuple.headSize (types.map ParamType.slot) ≤ 2 ^ 62 ∧
      Guarded.encodeValue (.array (.array .string)) texts = plain (encodeValue (.array (.array .string)) texts) ∧
      Guarded.encode types values = plain (encode types values) ∧
      ∃ b, encode types values = .ok b ∧ Guarded.encode types values = .ok b) ∧
    (Value.rooms missing < 2 ^ 60 ∧
      Guarded.encode huge missing = .error (.trap (.overflow 18446744073709551584 32)) ∧
      ∃ fault, encode huge missing = .error fault) := by
  intro texts types values huge missing
  have hroom : Value.rooms values < 2 ^ 60 := by decide +kernel
  have htexts : texts.room ≤ Value.rooms values := by decide +kernel
  have hhead : Tuple.headSize (types.map ParamType.slot) ≤ 2 ^ 62 := by decide +kernel
  have hmissing : Value.rooms missing < 2 ^ 60 := by decide +kernel
  have htrap : Guarded.encode huge missing = .error (.trap (.overflow 18446744073709551584 32)) := rfl
  obtain ⟨b, hb⟩ : ∃ b, encode types values = .ok b := ⟨_, rfl⟩
  obtain ⟨hinside, hsmall, hok, -⟩ := encode_guarded types values hroom
  obtain ⟨-, -, -, hrefused⟩ := encode_guarded huge missing hmissing
  exact ⟨⟨hroom, htexts, hhead, hinside _ texts htexts, hsmall (.inl hhead), b, hb, hok b hb⟩,
    hmissing, htrap, (hrefused _ htrap).1⟩

/-- These types can be named and these values are small, and the second offset is more than 64 bits hold. The
count of the array would be found wrong only behind it. -/
theorem encode_overflows :
    let types := [ParamType.bytes, .bytes, .fixedArray (.uint 8) 576460752303423485]
    let values := [Value.bytes [], .bytes [], .array []]
    ["bytes", "bytes", "uint8[576460752303423485]"].mapM ParamType.parse = .ok types ∧
      Value.rooms values < 2 ^ 60 ∧
      Guarded.encode types values = .error (.trap (.overflow 18446744073709551584 32)) ∧
      maxSize < 18446744073709551584 + 32 := by
  intro types values
  have hparse : ["bytes", "bytes", "uint8[576460752303423485]"].mapM ParamType.parse = .ok types :=
    eq_ok_of_toOption (by decide +kernel)
  exact ⟨hparse, by decide +kernel, rfl, by decide⟩

end Calldata
