import Calldata.Proofs.Standing

/-!
# The head and the tail of an encoding

Where everything stands in an encoding: static values in their slots, dynamic ones behind the head,
one after the other, and in their slots the offsets that lead to them. The same holds inside of
every array.
-/

namespace Calldata

namespace Tuple

/-! ## Places -/

/-- The bytes that the parts have in the tail. -/
def tailSize (ps : List Part) : Nat := ((ps.filter (·.slot.dynamic)).map (·.encoding.length)).sum

/-- Where the slot of a part starts. -/
def slotStart (ps : List Part) (i : Nat) : Nat := headSize ((ps.take i).map (·.slot))

/-- Where the tail has the encoding of a part, counted from the start of the tuple. -/
def payloadStart (ps : List Part) (i : Nat) : Nat := headSize (ps.map (·.slot)) + tailSize (ps.take i)

/-- Place `k` belongs to what the tail has of part `i`. -/
def InPayload (ps : List Part) (k i : Nat) : Prop :=
  ∃ p, ps[i]? = some p ∧ p.slot.dynamic = true ∧ payloadStart ps i ≤ k ∧
    k < payloadStart ps i + p.encoding.length

/-- The parts stand in `b` by the format of heads and tails. -/
structure LaidOut (ps : List Part) (b : Bytes) : Prop where
  length : b.length = headSize (ps.map (·.slot)) + tailSize ps
  static (i : Nat) (p : Part) (hp : ps[i]? = some p) (hd : p.slot.dynamic = false) :
    p.encoding.length = p.slot.size ∧ Holds b (slotStart ps i) p.encoding
  dynamic (i : Nat) (p : Part) (hp : ps[i]? = some p) (hd : p.slot.dynamic = true) :
    p.slot.size = wordSize ∧ payloadStart ps i ≤ maxSize ∧
      Holds b (slotStart ps i) (bigEndian wordSize (payloadStart ps i)) ∧
      Holds b (payloadStart ps i) p.encoding
  tail : b.drop (headSize (ps.map (·.slot))) = (ps.filter (·.slot.dynamic)).flatMap (·.encoding)
  tiled (k : Nat) (hk : headSize (ps.map (·.slot)) ≤ k) (hend : k < b.length) : ∃! i, InPayload ps k i
  whole : wordSize ∣ b.length
  aligned (i : Nat) : wordSize ∣ slotStart ps i ∧ wordSize ∣ payloadStart ps i ∧
    ∀ p : Part, ps[i]? = some p → wordSize ∣ p.encoding.length

end Tuple

/-- Values are encoded part by part and laid out in `b`, and `inside` holds of the encoding of each. -/
def TupleOf (inside : ParamType → Value → Bytes → Prop) (types : List ParamType) (values : List Value)
    (b : Bytes) : Prop :=
  ∃ ps, Parts types values ps ∧ Tuple.LaidOut ps b ∧
    ∀ (i : Nat) (t : ParamType) (v : Value) (p : Tuple.Part),
      types[i]? = some t → values[i]? = some v → ps[i]? = some p → inside t v p.encoding

/-- The format of the encoding of a value: in an array of fixed length its items are a tuple, in any
other they are one behind their count. -/
def Formatted : ParamType → Value → Bytes → Prop
  | .fixedArray elem n, v, e =>
    ∃ items, v = .array items ∧ TupleOf (fun _ => Formatted elem) (List.replicate n elem) items e
  | .array elem, v, e =>
    ∃ items b, v = .array items ∧ items.length ≤ maxSize ∧ e = bigEndian wordSize items.length ++ b ∧
      TupleOf (fun _ => Formatted elem) (List.replicate items.length elem) items b
  | _, _, _ => True

variable {data e b : Bytes} {t elem : ParamType} {ts : List ParamType} {v : Value} {vs items : List Value}
  {p : Tuple.Part} {ps : List Tuple.Part} {base cursor next i k n s : Nat}

namespace Tuple

@[simp] theorem tailSize_nil : tailSize [] = 0 := rfl

theorem tailSize_cons : tailSize (p :: ps) = (if p.slot.dynamic then p.encoding.length else 0) + tailSize ps := by
  cases hd : p.slot.dynamic <;> simp [tailSize, hd]

theorem length_tail (ps : List Part) : (tail ps).length = tailSize ps := by
  simp [tail, tailSize, List.length_flatMap]

/-! ## Tiles -/

theorem tiled_from (hk : s ≤ k) (hend : k < s + tailSize ps) :
    ∃! i, ∃ p, ps[i]? = some p ∧ p.slot.dynamic = true ∧ s + tailSize (ps.take i) ≤ k ∧
      k < s + tailSize (ps.take i) + p.encoding.length := by
  induction ps generalizing s with
  | nil => simp at hend; omega
  | cons q ps ih =>
    rw [tailSize_cons] at hend
    by_cases hq : q.slot.dynamic = true ∧ k < s + q.encoding.length
    · -- The place is in the first payload, and all others start behind it.
      refine ⟨0, ⟨q, rfl, hq.1, by simpa using hk, by simpa using hq.2⟩, ?_⟩
      rintro j ⟨p, hp, -, hstart, -⟩
      cases j with
      | zero => rfl
      | succ j =>
        rw [List.take_succ_cons, tailSize_cons, if_pos hq.1] at hstart
        omega
    · -- What the first part has in the tail ends in front of the place.
      have hstep : s + (if q.slot.dynamic then q.encoding.length else 0) ≤ k := by
        split
        · rename_i hd
          have := not_and.mp hq hd
          omega
        · omega
      obtain ⟨i, ⟨p, hp, hd, hstart, hstop⟩, hunique⟩ := ih hstep (by omega)
      refine ⟨i + 1, ⟨p, hp, hd, ?_, ?_⟩, ?_⟩
      · rw [List.take_succ_cons, tailSize_cons]
        omega
      · rw [List.take_succ_cons, tailSize_cons]
        omega
      · rintro j ⟨r, hr, hrd, hrstart, hrstop⟩
        cases j with
        | zero =>
          obtain rfl : q = r := Option.some.inj hr
          simp only [List.take_zero, tailSize_nil] at hrstop
          exact absurd ⟨hrd, hrstop⟩ hq
        | succ j =>
          rw [List.take_succ_cons, tailSize_cons] at hrstart hrstop
          rw [hunique j ⟨r, hr, hrd, by omega, by omega⟩]

end Tuple

/-! ## Parts -/

theorem Parts.get (h : Parts ts vs ps) (ht : ts[i]? = some t) (hv : vs[i]? = some v) (hp : ps[i]? = some p) :
    encodeValue t v = .ok p.encoding ∧ p.slot = t.slot := by
  induction h generalizing i with
  | nil => simp at ht
  | cons first rest ih =>
    cases i with
    | zero =>
      obtain rfl := Option.some.inj ht
      obtain rfl := Option.some.inj hv
      obtain rfl := Option.some.inj hp
      exact ⟨first, rfl⟩
    | succ i => exact ih ht hv hp

/-- The part fills its slot, with an offset or with its encoding. -/
def Tuple.Part.Fills (p : Tuple.Part) : Prop :=
  if p.slot.dynamic then p.slot.size = wordSize else p.encoding.length = p.slot.size

theorem Parts.fills (h : Parts ts vs ps) : ∀ p ∈ ps, p.Fills := by
  induction h with
  | nil => simp
  | @cons t v e ts vs ps first rest ih =>
    refine List.forall_mem_cons.mpr ⟨?_, ih⟩
    unfold Tuple.Part.Fills
    split
    · rename_i hd
      exact ParamType.headSize_of_isDynamic hd
    · rename_i hd
      exact length_of_static (by simpa [ParamType.slot] using hd) first

theorem Laid.drop (hfills : ∀ p ∈ ps, p.Fills) (h : Laid data base cursor next ps) (i : Nat) :
    Laid data base (cursor + Tuple.slotStart ps i) (next + Tuple.tailSize (ps.take i)) (ps.drop i) := by
  induction i generalizing ps cursor next with
  | zero => exact h
  | succ i ih =>
    cases ps with
    | nil => exact h
    | cons p ps =>
      obtain ⟨slot, e⟩ := p
      obtain ⟨hfill, hrest⟩ := List.forall_mem_cons.mp hfills
      unfold Tuple.Part.Fills at hfill
      unfold Tuple.slotStart
      rw [List.take_succ_cons, List.map_cons, headSize_cons, Tuple.tailSize_cons, ← Nat.add_assoc, ← Nat.add_assoc]
      cases hd : slot.dynamic with
      | true =>
        obtain ⟨-, -, -, hlaid⟩ := h.dynamic hd
        rw [if_pos hd] at hfill
        have hsize : slot.size = wordSize := hfill
        rw [hsize]
        exact ih hrest hlaid
      | false =>
        obtain ⟨-, hlaid⟩ := h.static hd
        rw [if_neg (by simp [hd])] at hfill
        have hsize : e.length = slot.size := hfill
        rw [← hsize]
        exact ih hrest hlaid

/-! ## Whole words -/

theorem Parts.forall_encoding {P : Bytes → Prop} (ht : ∀ t ∈ ts, ∀ v e, encodeValue t v = .ok e → P e)
    (h : Parts ts vs ps) : ∀ p ∈ ps, P p.encoding := by
  induction h with
  | nil => simp
  | @cons t v e ts vs ps first rest ih =>
    refine List.forall_mem_cons.mpr ⟨ht t List.mem_cons_self v e first, ?_⟩
    exact ih fun u hu => ht u (List.mem_cons_of_mem t hu)

theorem dvd_headSize (hfills : ∀ p ∈ ps, p.Fills) (hwhole : ∀ p ∈ ps, wordSize ∣ p.encoding.length) :
    wordSize ∣ Tuple.headSize (ps.map (·.slot)) := by
  induction ps with
  | nil => exact Nat.dvd_zero _
  | cons p ps ih =>
    obtain ⟨hfill, hfills⟩ := List.forall_mem_cons.mp hfills
    obtain ⟨hword, hwhole⟩ := List.forall_mem_cons.mp hwhole
    rw [List.map_cons, headSize_cons]
    apply Nat.dvd_add _ (ih hfills hwhole)
    unfold Tuple.Part.Fills at hfill
    split at hfill
    · rw [hfill]
    · rwa [← hfill]

theorem dvd_tailSize (hwhole : ∀ p ∈ ps, wordSize ∣ p.encoding.length) : wordSize ∣ Tuple.tailSize ps := by
  induction ps with
  | nil => exact Nat.dvd_zero _
  | cons p ps ih =>
    obtain ⟨hword, hwhole⟩ := List.forall_mem_cons.mp hwhole
    rw [Tuple.tailSize_cons]
    apply Nat.dvd_add _ (ih hwhole)
    split
    · exact hword
    · exact Nat.dvd_zero _

theorem length_laid (h : Parts ts vs ps) :
    (Tuple.layOut ps).length = Tuple.headSize (ps.map (·.slot)) + Tuple.tailSize ps := by
  rw [Tuple.layOut, List.length_append, length_head h, Tuple.length_tail, h.slots]

theorem dvd_tuple (ht : ∀ t ∈ ts, ∀ v e, encodeValue t v = .ok e → wordSize ∣ e.length)
    (h : encode ts vs = .ok b) : wordSize ∣ b.length := by
  obtain ⟨-, ps, hps, rfl⟩ := encode_ok_iff.mp h
  have hwhole : ∀ p ∈ ps, wordSize ∣ p.encoding.length := hps.forall_encoding ht
  rw [length_laid hps]
  exact Nat.dvd_add (dvd_headSize hps.fills hwhole) (dvd_tailSize hwhole)

theorem dvd_of_ok (h : encodeValue t v = .ok e) : wordSize ∣ e.length := by
  induction t using ParamType.codecInduction generalizing v e with
  | scalar t ht => rw [length_word_of_ok (.inl ht) h]
  | function => rw [length_word_of_ok (.inr rfl) h]
  | bytes =>
    rw [encodeValue] at h
    obtain ⟨bs, -, rfl⟩ := map_ok_iff.mp h
    exact ⟨_, length_encodeBlob bs⟩
  | string =>
    rw [encodeValue] at h
    obtain ⟨s, -, rfl⟩ := map_ok_iff.mp h
    exact ⟨_, length_encodeBlob _⟩
  | fixedArray elem n ih =>
    obtain ⟨items, -, -, henc⟩ := encode_fixedArray_iff.mp h
    exact dvd_tuple (ParamType.forall_items fun _ _ => ih) henc
  | array elem ih =>
    obtain ⟨items, b, -, henc, he⟩ := encode_array_iff.mp h
    rw [he, List.length_append, length_bigEndian]
    exact Nat.dvd_add (Nat.dvd_refl _) (dvd_tuple (ParamType.forall_items fun _ _ => ih) henc)

/-! ## Encodings follow the format -/

theorem laidOut_of_parts (hps : Parts ts vs ps) (hlen : (Tuple.layOut ps).length ≤ maxSize) :
    Tuple.LaidOut ps (Tuple.layOut ps) := by
  have hwhole : ∀ p ∈ ps, wordSize ∣ p.encoding.length := hps.forall_encoding fun _ _ _ _ => dvd_of_ok
  have hlaid := laid_layOut hps (holds_self (Tuple.layOut ps))
  rw [← hps.slots] at hlaid
  have hpart (i : Nat) (p : Tuple.Part) (hp : ps[i]? = some p) :
      Laid (Tuple.layOut ps) 0 (Tuple.slotStart ps i) (Tuple.payloadStart ps i) (p :: ps.drop (i + 1)) := by
    obtain ⟨hi, rfl⟩ := List.getElem?_eq_some_iff.mp hp
    have hdrop := hlaid.drop hps.fills i
    rwa [Nat.zero_add, List.drop_eq_getElem_cons hi] at hdrop
  have hfill (i : Nat) (p : Tuple.Part) (hp : ps[i]? = some p) : p.Fills :=
    hps.fills p (List.mem_of_getElem? hp)
  constructor
  case length => exact length_laid hps
  case static =>
    intro i p hp hd
    have hfills := hfill i p hp
    rw [Tuple.Part.Fills, if_neg (by simp [hd])] at hfills
    exact ⟨hfills, ((hpart i p hp).static hd).1⟩
  case dynamic =>
    intro i p hp hd
    have hfills := hfill i p hp
    rw [Tuple.Part.Fills, if_pos hd] at hfills
    obtain ⟨hword, he, -, -⟩ := (hpart i p hp).dynamic hd
    rw [Nat.zero_add] at he
    have hle := he.le
    exact ⟨hfills, by omega, hword, he⟩
  case tail =>
    have hhead : (Tuple.head (Tuple.headSize (ps.map (·.slot))) ps).length = _ := length_head hps
    rw [Tuple.layOut, hps.slots] at *
    rw [List.drop_left' hhead]
    rfl
  case tiled =>
    intro k hk hend
    rw [length_laid hps] at hend
    exact Tuple.tiled_from hk hend
  case whole =>
    rw [length_laid hps]
    exact Nat.dvd_add (dvd_headSize hps.fills hwhole) (dvd_tailSize hwhole)
  case aligned =>
    intro i
    have hfront : ∀ p ∈ ps.take i, wordSize ∣ p.encoding.length := fun p hp => hwhole p (List.mem_of_mem_take hp)
    refine ⟨dvd_headSize (fun p hp => hps.fills p (List.mem_of_mem_take hp)) hfront, ?_, ?_⟩
    · exact Nat.dvd_add (dvd_headSize hps.fills hwhole) (dvd_tailSize hfront)
    · exact fun p hp => hwhole p (List.mem_of_getElem? hp)

theorem Tuple.LaidOut.length_le (h : Tuple.LaidOut ps b) (hp : ps[i]? = some p) :
    p.encoding.length ≤ b.length := by
  cases hd : p.slot.dynamic with
  | true =>
    have hle := (h.dynamic i p hp hd).2.2.2.le
    omega
  | false =>
    have hle := (h.static i p hp hd).2.le
    omega

theorem tupleOf_of_ok {inside : ParamType → Value → Bytes → Prop}
    (ht : ∀ t ∈ ts, ∀ v e, encodeValue t v = .ok e → e.length ≤ maxSize → inside t v e)
    (h : encode ts vs = .ok b) (hlen : b.length ≤ maxSize) : TupleOf inside ts vs b := by
  obtain ⟨-, ps, hps, rfl⟩ := encode_ok_iff.mp h
  have hlaid := laidOut_of_parts hps hlen
  refine ⟨ps, hps, hlaid, fun i t v p hti hvi hpi => ?_⟩
  have hle := hlaid.length_le hpi
  exact ht t (List.mem_of_getElem? hti) v _ (hps.get hti hvi hpi).1 (by omega)

theorem formatted_of_ok (hw : t.WellFormed) (h : encodeValue t v = .ok e) (hlen : e.length ≤ maxSize) :
    Formatted t v e := by
  induction t using ParamType.codecInduction generalizing v e with
  | scalar t ht => cases t <;> trivial
  | function | bytes | string => trivial
  | fixedArray elem n ih =>
    obtain ⟨items, hv, -, henc⟩ := encode_fixedArray_iff.mp h
    exact ⟨items, hv, tupleOf_of_ok (ParamType.forall_items fun _ _ => ih hw.1) henc hlen⟩
  | array elem ih =>
    have helem : elem.WellFormed := hw
    obtain ⟨items, b, hv, henc, he⟩ := encode_array_iff.mp h
    have hb : b.length ≤ maxSize := by
      rw [he, List.length_append] at hlen
      omega
    exact ⟨items, b, hv, count_le helem henc, he, tupleOf_of_ok (ParamType.forall_items fun _ _ => ih helem) henc hb⟩

/-- Values are encoded in the format of heads and tails, and so are the items of every array in them. -/
theorem encode_formatted (types : List ParamType) (values : List Value) (b : Bytes)
    (htypes : ∀ t ∈ types, t.WellFormed) (henc : encode types values = .ok b) (hlen : b.length < 2 ^ 63) :
    TupleOf Formatted types values b :=
  tupleOf_of_ok (fun t ht _ _ => formatted_of_ok (htypes t ht)) henc (lt_maxSize hlen).le

theorem encode_formatted_nested :
    let types := [ParamType.string, .uint 8, .array (.fixedArray .string 1)]
    let values := [Value.string "hi", .uint 7, .array [.array [.string "a"], .array [.string "bc"]]]
    let text (bs : Bytes) := bigEndian wordSize bs.length ++ bs ++ zeros (wordSize - bs.length)
    let b := bigEndian wordSize 96 ++ bigEndian wordSize 7 ++ bigEndian wordSize 160 ++ text [104, 105] ++
      bigEndian wordSize 2 ++ bigEndian wordSize 64 ++ bigEndian wordSize 160 ++
      bigEndian wordSize 32 ++ text [97] ++ bigEndian wordSize 32 ++ text [98, 99]
    ((∀ t ∈ types, t.WellFormed) ∧ encode types values = .ok b ∧ b.length < 2 ^ 63) ∧
      TupleOf Formatted types values b := by
  intro types values text b
  have htypes : ∀ t ∈ types, t.WellFormed := by
    simp [types, ParamType.WellFormed, ParamType.IsWidth, ParamType.IsArrayLength, maxSize]
  have henc : encode types values = .ok b := eq_ok_of_toOption (by decide +kernel)
  have hlen : b.length < 2 ^ 63 := by decide +kernel
  exact ⟨⟨htypes, henc, hlen⟩, encode_formatted types values b htypes henc hlen⟩

end Calldata
