import Calldata.Proofs.Words

/-!
# The layout of encodings

An encoding of several values is laid out from the encodings of each of them. Arrays are encoded as
tuples of their items, so what holds of tuples holds inside of every array.
-/

namespace Calldata

variable {t elem : ParamType} {ts : List ParamType} {v : Value} {vs : List Value} {e b : Bytes}
  {slot : Slot} {ps : List Tuple.Part} {next n : Nat}

/-! ## Heads and tails -/

theorem head_dynamic (h : slot.dynamic = true) :
    Tuple.head next (⟨slot, e⟩ :: ps) = bigEndian wordSize next ++ Tuple.head (next + e.length) ps := by
  rw [Tuple.head, if_pos h]

theorem head_static (h : slot.dynamic = false) :
    Tuple.head next (⟨slot, e⟩ :: ps) = e ++ Tuple.head next ps := by
  rw [Tuple.head, if_neg (by simp [h])]

theorem tail_dynamic (h : slot.dynamic = true) : Tuple.tail (⟨slot, e⟩ :: ps) = e ++ Tuple.tail ps := by
  simp [Tuple.tail, h]

theorem tail_static (h : slot.dynamic = false) : Tuple.tail (⟨slot, e⟩ :: ps) = Tuple.tail ps := by
  simp [Tuple.tail, h]

/-! ## Tuples -/

/-- The parts that values of these types are laid out from. -/
inductive Parts : List ParamType → List Value → List Tuple.Part → Prop
  | nil : Parts [] [] []
  | cons {t : ParamType} {v : Value} {e : Bytes} {ts : List ParamType} {vs : List Value} {ps : List Tuple.Part}
      (first : encodeValue t v = .ok e) (rest : Parts ts vs ps) :
      Parts (t :: ts) (v :: vs) (⟨t.slot, e⟩ :: ps)

theorem Parts.slots (h : Parts ts vs ps) : ps.map (·.slot) = ts.map ParamType.slot := by
  induction h with
  | nil => rfl
  | cons first rest ih => rw [List.map_cons, List.map_cons, ih]

theorem Parts.length_eq (h : Parts ts vs ps) : ts.length = vs.length := by
  induction h with
  | nil => rfl
  | cons first rest ih => rw [List.length_cons, List.length_cons, ih]

/-- The slots and the encodings of values, which their tuple is encoded from. -/
def fields (ts : List ParamType) (vs : List Value) : List (Slot × Except Fault Bytes) :=
  (ts.zip vs).map fun field => (field.1.slot, encodeValue field.1 field.2)

@[simp] theorem fields_cons : fields (t :: ts) (v :: vs) = (t.slot, encodeValue t v) :: fields ts vs := rfl

theorem encode_of_length (hlen : ts.length = vs.length) : encode ts vs = Tuple.encode (fields ts vs) :=
  if_neg (by simp [hlen])

theorem slots_fields (hlen : ts.length = vs.length) : (fields ts vs).map (·.1) = ts.map ParamType.slot := by
  rw [fields, List.map_map]
  change (ts.zip vs).map (ParamType.slot ∘ Prod.fst) = _
  rw [← List.map_map, List.map_fst_zip (Nat.le_of_eq hlen)]

theorem parts_ok_iff (hlen : ts.length = vs.length) : Tuple.parts (fields ts vs) = .ok ps ↔ Parts ts vs ps := by
  induction ts generalizing vs ps with
  | nil =>
    obtain rfl : vs = [] := List.eq_nil_of_length_eq_zero hlen.symm
    constructor
    · rintro ⟨⟩
      exact .nil
    · rintro ⟨⟩
      rfl
  | cons t ts ih =>
    obtain ⟨v, vs, rfl⟩ := List.exists_cons_of_length_eq_add_one hlen.symm
    rw [List.length_cons, List.length_cons, Nat.add_right_cancel_iff] at hlen
    rw [fields_cons]
    constructor
    · intro h
      cases he : encodeValue t v with
      | error f => simp [he, Tuple.parts] at h
      | ok e =>
        simp only [he, Tuple.parts] at h
        obtain ⟨rest, hrest, rfl⟩ := map_ok_iff.mp h
        exact .cons he ((ih hlen).mp hrest)
    · rintro (_ | ⟨he, hrest⟩)
      simp only [he, Tuple.parts]
      exact map_ok_iff.mpr ⟨_, (ih hlen).mpr hrest, rfl⟩

/-- Values are encoded by laying out their parts, unless the slots take too much room. -/
theorem encode_ok_iff :
    encode ts vs = .ok b ↔
      Tuple.headSize (ts.map ParamType.slot) ≤ maxSize ∧ ∃ ps, Parts ts vs ps ∧ b = Tuple.layOut ps := by
  by_cases hlen : ts.length = vs.length
  · rw [encode_of_length hlen, Tuple.encode, slots_fields hlen]
    split
    · rename_i hmax
      simp only [reduceCtorEq, false_iff]
      rintro ⟨h, -⟩
      omega
    · rename_i hmax
      rw [map_ok_iff]
      constructor
      · rintro ⟨ps, hps, rfl⟩
        exact ⟨by omega, ps, (parts_ok_iff hlen).mp hps, rfl⟩
      · rintro ⟨-, ps, hps, rfl⟩
        exact ⟨ps, (parts_ok_iff hlen).mpr hps, rfl⟩
  · rw [encode, if_pos hlen]
    simp only [reduceCtorEq, false_iff]
    rintro ⟨-, ps, hps, -⟩
    exact hlen hps.length_eq

/-! ## Arrays -/

theorem zip_items (items : List Value) :
    (List.replicate items.length elem).zip items = items.map (elem, ·) := by
  rw [List.map_prod_right_eq_zip, List.map_const']

theorem encode_items (items : List Value) :
    encode (List.replicate items.length elem) items =
      Tuple.encode (items.map fun item => (elem.slot, encodeValue elem item)) := by
  rw [encode_of_length (by simp), fields, zip_items, List.map_map]
  rfl

theorem encodeValue_fixedArray (items : List Value) :
    encodeValue (.fixedArray elem n) (.array items) =
      if items.length ≠ n then .error (.arity n items.length)
      else encode (List.replicate items.length elem) items := by
  rw [encodeValue, encode_items]
  rfl

theorem encodeValue_array (items : List Value) :
    encodeValue (.array elem) (.array items) =
      (encode (List.replicate items.length elem) items).map (bigEndian wordSize items.length ++ ·) := by
  rw [encodeValue, encode_items]
  rfl

theorem itemsOf_ok_iff {items : List Value} : itemsOf elem v = .ok items ↔ v = .array items := by
  cases v <;> simp [itemsOf]

theorem encode_fixedArray_iff :
    encodeValue (.fixedArray elem n) v = .ok e ↔
      ∃ items, v = .array items ∧ items.length = n ∧ encode (List.replicate n elem) items = .ok e := by
  rw [encodeValue]
  constructor
  · intro h
    cases hv : itemsOf elem v with
    | error f => simp [hv] at h
    | ok items =>
      simp only [hv, ← encode_items] at h
      split at h
      · simp at h
      · rename_i hlen
        rw [Decidable.not_not] at hlen
        subst hlen
        exact ⟨items, itemsOf_ok_iff.mp hv, rfl, h⟩
  · rintro ⟨items, rfl, rfl, h⟩
    simp only [itemsOf, ne_eq, not_true_eq_false, if_false]
    rw [← encode_items, h]

theorem encode_array_iff :
    encodeValue (.array elem) v = .ok e ↔
      ∃ items b, v = .array items ∧ encode (List.replicate items.length elem) items = .ok b ∧
        e = bigEndian wordSize items.length ++ b := by
  rw [encodeValue]
  constructor
  · intro h
    cases hv : itemsOf elem v with
    | error f => simp [hv] at h
    | ok items =>
      simp only [hv, ← encode_items] at h
      obtain ⟨b, hb, he⟩ := map_ok_iff.mp h
      exact ⟨items, b, itemsOf_ok_iff.mp hv, hb, he.symm⟩
  · rintro ⟨items, b, rfl, hb, he⟩
    simp only [itemsOf]
    rw [← encode_items, hb, he]
    rfl

/-! ## Room -/

@[simp] theorem headSize_nil : Tuple.headSize [] = 0 := rfl

@[simp] theorem headSize_cons (slot : Slot) (slots : List Slot) :
    Tuple.headSize (slot :: slots) = slot.size + Tuple.headSize slots := rfl

theorem headSize_replicate : Tuple.headSize ((List.replicate n t).map ParamType.slot) = n * t.headSize := by
  induction n with
  | zero => simp
  | succ n ih =>
    rw [List.replicate_succ, List.map_cons, headSize_cons, ih, Nat.succ_mul, Nat.add_comm]
    rfl

theorem length_head_of_static (ht : ∀ t ∈ ts, t.isDynamic = false → ∀ v e, encodeValue t v = .ok e →
      e.length = t.headSize) (h : Parts ts vs ps) :
    (Tuple.head next ps).length = Tuple.headSize (ts.map ParamType.slot) := by
  induction h generalizing next with
  | nil => rfl
  | @cons t v e ts vs ps first rest ih =>
    have hrest (next : Nat) : (Tuple.head next ps).length = _ :=
      ih fun u hu => ht u (List.mem_cons_of_mem t hu)
    rw [List.map_cons, headSize_cons]
    cases hd : t.isDynamic with
    | true =>
      rw [head_dynamic hd, List.length_append, length_bigEndian, hrest, ParamType.slot,
        ParamType.headSize_of_isDynamic hd]
    | false =>
      rw [head_static hd, List.length_append, hrest, ht t List.mem_cons_self hd v e first]
      rfl

theorem tail_of_static (ht : ∀ t ∈ ts, t.isDynamic = false) (h : Parts ts vs ps) : Tuple.tail ps = [] := by
  induction h with
  | nil => rfl
  | @cons t v e ts vs ps first rest ih =>
    rw [tail_static (ht t List.mem_cons_self)]
    exact ih fun u hu => ht u (List.mem_cons_of_mem t hu)

/-- The encoding of a static value fills its slot, however the size of its type was cut down. -/
theorem length_of_static (hd : t.isDynamic = false) (h : encodeValue t v = .ok e) : e.length = t.headSize := by
  induction t using ParamType.codecInduction generalizing v e with
  | scalar t ht => rw [ParamType.headSize_of_isScalar ht, length_word_of_ok (.inl ht) h]
  | function => exact length_word_of_ok (.inr rfl) h
  | bytes | string | array => simp [ParamType.isDynamic] at hd
  | fixedArray elem n ih =>
    have hdelem : elem.isDynamic = false := hd
    obtain ⟨items, -, -, henc⟩ := encode_fixedArray_iff.mp h
    obtain ⟨hmax, ps, hps, rfl⟩ := encode_ok_iff.mp henc
    have hhead : (Tuple.head (Tuple.headSize (ps.map (·.slot))) ps).length = _ :=
      length_head_of_static (ParamType.forall_items fun _ _ _ => ih hdelem) hps
    have htail : Tuple.tail ps = [] :=
      tail_of_static (ParamType.forall_items hdelem) hps
    rw [headSize_replicate] at hmax hhead
    rw [Tuple.layOut, htail, List.append_nil, hhead]
    simp only [ParamType.headSize, hdelem, hd, ParamType.staticSize, Bool.false_eq_true, if_false] at *
    rw [Nat.mul_comm] at *
    exact (Nat.min_eq_left hmax).symm

theorem length_head (h : Parts ts vs ps) :
    (Tuple.head next ps).length = Tuple.headSize (ts.map ParamType.slot) :=
  length_head_of_static (fun _ _ hd _ _ => length_of_static hd) h

end Calldata
