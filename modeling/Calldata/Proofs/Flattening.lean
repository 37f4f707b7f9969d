import Calldata.Proofs.StaticTypes

/-!
# Arrays in place of their items

A static array takes the same room in a tuple as its items one after the other, and none in the tail.
So it can stand in place of its items among any other values, whose offsets stay as they are.
-/

namespace Calldata

variable {data b e : Bytes} {elem : ParamType} {ts us before after : List ParamType}
  {vs ws front back : List Value} {ps qs xs ys : List Tuple.Part} {base cursor n k : Nat}

/-! ## Tuples side by side -/

namespace Tuple

theorem headSize_append (slots rest : List Slot) : headSize (slots ++ rest) = headSize slots + headSize rest := by
  induction slots with
  | nil => simp
  | cons slot slots ih => rw [List.cons_append, headSize_cons, headSize_cons, ih, Nat.add_assoc]

theorem tail_append (ps qs : List Part) : tail (ps ++ qs) = tail ps ++ tail qs := by
  simp [tail]

theorem head_append (next : Nat) (ps qs : List Part) :
    head next (ps ++ qs) = head next ps ++ head (next + (tail ps).length) qs := by
  induction ps generalizing next with
  | nil => rfl
  | cons p ps ih =>
    obtain ⟨slot, e⟩ := p
    rw [List.cons_append]
    cases hd : slot.dynamic with
    | true =>
      rw [head_dynamic hd, head_dynamic hd, tail_dynamic hd, ih, List.append_assoc, List.length_append, Nat.add_assoc]
    | false => rw [head_static hd, head_static hd, tail_static hd, ih, List.append_assoc]

theorem layOut_congr (hhead : ∀ next, head next xs = head next ys) (htail : tail xs = tail ys)
    (hsize : headSize (xs.map (·.slot)) = headSize (ys.map (·.slot))) :
    layOut (ps ++ xs ++ qs) = layOut (ps ++ ys ++ qs) := by
  simp only [layOut, head_append, tail_append, List.map_append, headSize_append, List.length_append, hhead, htail,
    hsize]

end Tuple

theorem parts_append_iff (hlen : ts.length = vs.length) :
    Parts (ts ++ us) (vs ++ ws) ps ↔ ∃ xs ys, Parts ts vs xs ∧ Parts us ws ys ∧ ps = xs ++ ys := by
  induction ts generalizing vs ps with
  | nil =>
    obtain rfl : vs = [] := List.eq_nil_of_length_eq_zero hlen.symm
    constructor
    · intro h
      exact ⟨[], ps, .nil, h, rfl⟩
    · rintro ⟨_, ys, ⟨⟩, hys, rfl⟩
      exact hys
  | cons t ts ih =>
    obtain ⟨v, vs, rfl⟩ := List.exists_cons_of_length_eq_add_one hlen.symm
    rw [List.length_cons, List.length_cons, Nat.add_right_cancel_iff] at hlen
    constructor
    · rintro (_ | ⟨first, rest⟩)
      obtain ⟨xs, ys, hxs, hys, rfl⟩ := (ih hlen).mp rest
      exact ⟨_ :: xs, ys, .cons first hxs, hys, rfl⟩
    · rintro ⟨_, ys, _ | ⟨first, hxs⟩, hys, rfl⟩
      exact .cons first ((ih hlen).mpr ⟨_, ys, hxs, hys, rfl⟩)

theorem runs_append_iff (hlen : ts.length = vs.length) :
    Runs (decodeFields data base cursor (ts ++ us)) (.ok (vs ++ ws)) n ↔
      ∃ i j, Runs (decodeFields data base cursor ts) (.ok vs) i ∧
        Runs (decodeFields data base (cursor + Tuple.headSize (ts.map ParamType.slot)) us) (.ok ws) j ∧
        n = i + j := by
  induction ts generalizing vs cursor n with
  | nil =>
    obtain rfl : vs = [] := List.eq_nil_of_length_eq_zero hlen.symm
    constructor
    · intro h
      exact ⟨0, n, runs_nil_iff.mpr ⟨rfl, rfl⟩, h, (Nat.zero_add n).symm⟩
    · rintro ⟨i, j, hnil, h, rfl⟩
      obtain ⟨-, rfl⟩ := runs_nil_iff.mp hnil
      rwa [Nat.zero_add]
  | cons t ts ih =>
    obtain ⟨v, vs, rfl⟩ := List.exists_cons_of_length_eq_add_one hlen.symm
    rw [List.length_cons, List.length_cons, Nat.add_right_cancel_iff] at hlen
    rw [List.map_cons, headSize_cons, ← Nat.add_assoc]
    constructor
    · intro h
      obtain ⟨_, _, i, _, hv, hrest, ⟨⟩, rfl⟩ := runs_cons_iff.mp h
      obtain ⟨j, k, hvs, hws, rfl⟩ := (ih hlen).mp hrest
      exact ⟨i + j, k, runs_cons_iff.mpr ⟨v, vs, i, j, hv, hvs, rfl, rfl⟩, hws, (Nat.add_assoc i j k).symm⟩
    · rintro ⟨_, k, h, hws, rfl⟩
      obtain ⟨_, _, i, j, hv, hvs, ⟨⟩, rfl⟩ := runs_cons_iff.mp h
      exact runs_cons_iff.mpr ⟨v, vs ++ ws, i, j + k, hv, (ih hlen).mpr ⟨j, k, hvs, hws, rfl⟩, rfl, Nat.add_assoc i j k⟩

/-! ## The items of a static array -/

theorem headSize_fixedArray (hd : elem.isDynamic = false) (h : n * elem.headSize ≤ maxSize) :
    (ParamType.fixedArray elem n).headSize = n * elem.headSize := by
  rw [headSize_eq (t := .fixedArray elem n) hd, headSize_eq hd] at *
  change min (elem.staticSize * n) maxSize = _
  rw [Nat.mul_comm, Nat.min_eq_left h]

theorem headSize_items (hd : elem.isDynamic = false) (h : n * elem.headSize ≤ maxSize) :
    Tuple.headSize ([ParamType.fixedArray elem n].map ParamType.slot) =
      Tuple.headSize ((List.replicate n elem).map ParamType.slot) := by
  rw [headSize_replicate, ← headSize_fixedArray hd h]
  rfl

theorem head_of_static (ht : ∀ t ∈ ts, t.isDynamic = false) (h : Parts ts vs ps) (next : Nat) :
    Tuple.head next ps = Tuple.head 0 ps := by
  induction h with
  | nil => rfl
  | @cons t v e ts vs ps first rest ih =>
    have hd : t.slot.dynamic = false := ht t List.mem_cons_self
    rw [head_static hd, head_static hd, ih fun u hu => ht u (List.mem_cons_of_mem t hu)]

theorem encode_staticArray_iff (hd : elem.isDynamic = false) :
    encodeValue (.fixedArray elem n) (.array ws) = .ok e ↔
      n * elem.headSize ≤ maxSize ∧ ∃ ps, Parts (List.replicate n elem) ws ps ∧ e = Tuple.head 0 ps := by
  have hstatic : ∀ t ∈ List.replicate n elem, t.isDynamic = false := ParamType.forall_items hd
  have hlayOut (ps) (hps : Parts (List.replicate n elem) ws ps) : Tuple.layOut ps = Tuple.head 0 ps := by
    rw [Tuple.layOut, tail_of_static hstatic hps, List.append_nil, head_of_static hstatic hps]
  rw [encode_fixedArray_iff]
  constructor
  · rintro ⟨_, ⟨⟩, -, henc⟩
    obtain ⟨hmax, ps, hps, rfl⟩ := encode_ok_iff.mp henc
    rw [headSize_replicate] at hmax
    exact ⟨hmax, ps, hps, hlayOut ps hps⟩
  · rintro ⟨hmax, ps, hps, rfl⟩
    have hlen := hps.length_eq
    rw [List.length_replicate] at hlen
    rw [← headSize_replicate] at hmax
    exact ⟨ws, rfl, hlen.symm, encode_ok_iff.mpr ⟨hmax, ps, hps, (hlayOut ps hps).symm⟩⟩

theorem layOut_items (hd : elem.isDynamic = false) (hmax : n * elem.headSize ≤ maxSize)
    (h : Parts (List.replicate n elem) ws xs) :
    Tuple.layOut (ps ++ [⟨(ParamType.fixedArray elem n).slot, Tuple.head 0 xs⟩] ++ qs) =
      Tuple.layOut (ps ++ xs ++ qs) := by
  have hdarray : (ParamType.fixedArray elem n).slot.dynamic = false := hd
  have hstatic : ∀ t ∈ List.replicate n elem, t.isDynamic = false := ParamType.forall_items hd
  apply Tuple.layOut_congr
  · intro next
    rw [head_static hdarray, head_of_static hstatic h next]
    exact List.append_nil _
  · rw [tail_static hdarray, tail_of_static hstatic h]
    rfl
  · rw [h.slots, ← headSize_items hd hmax]
    rfl

theorem encode_between_iff (hfront : before.length = front.length) (hlen : ts.length = vs.length) :
    encode (before ++ ts ++ after) (front ++ vs ++ back) = .ok b ↔
      Tuple.headSize (before.map ParamType.slot) + Tuple.headSize (ts.map ParamType.slot) +
        Tuple.headSize (after.map ParamType.slot) ≤ maxSize ∧
      ∃ ps xs qs, Parts before front ps ∧ Parts ts vs xs ∧ Parts after back qs ∧
        b = Tuple.layOut (ps ++ xs ++ qs) := by
  have hfrontlen : (before ++ ts).length = (front ++ vs).length := by
    rw [List.length_append, List.length_append, hfront, hlen]
  rw [encode_ok_iff, List.map_append, List.map_append, Tuple.headSize_append, Tuple.headSize_append]
  constructor
  · rintro ⟨hmax, _, h, rfl⟩
    obtain ⟨_, qs, hfields, hqs, rfl⟩ := (parts_append_iff hfrontlen).mp h
    obtain ⟨ps, xs, hps, hxs, rfl⟩ := (parts_append_iff hfront).mp hfields
    exact ⟨hmax, ps, xs, qs, hps, hxs, hqs, rfl⟩
  · rintro ⟨hmax, ps, xs, qs, hps, hxs, hqs, rfl⟩
    have hfields := (parts_append_iff hfront).mpr ⟨ps, xs, hps, hxs, rfl⟩
    exact ⟨hmax, _, (parts_append_iff hfrontlen).mpr ⟨_, qs, hfields, hqs, rfl⟩, rfl⟩

theorem encode_items_iff (hd : elem.isDynamic = false) (hws : ws.length = n) (hfront : before.length = front.length) :
    encode (before ++ [.fixedArray elem n] ++ after) (front ++ [.array ws] ++ back) = .ok b ↔
      encode (before ++ List.replicate n elem ++ after) (front ++ ws ++ back) = .ok b := by
  have hitems : (List.replicate n elem).length = ws.length := by rw [List.length_replicate, hws]
  rw [encode_between_iff hfront rfl, encode_between_iff hfront hitems]
  constructor
  · rintro ⟨hmax, ps, _, qs, hps, _ | ⟨hfirst, ⟨⟩⟩, hqs, rfl⟩
    obtain ⟨hroom, xs, hxs, rfl⟩ := (encode_staticArray_iff hd).mp hfirst
    rw [headSize_items hd hroom] at hmax
    exact ⟨hmax, ps, xs, qs, hps, hxs, hqs, layOut_items hd hroom hxs⟩
  · rintro ⟨hmax, ps, xs, qs, hps, hxs, hqs, rfl⟩
    have hroom : n * elem.headSize ≤ maxSize := by
      rw [headSize_replicate] at hmax
      omega
    have hfirst := (encode_staticArray_iff hd).mpr ⟨hroom, xs, hxs, rfl⟩
    rw [← headSize_items hd hroom] at hmax
    exact ⟨hmax, ps, _, qs, hps, .cons hfirst .nil, hqs, (layOut_items hd hroom hxs).symm⟩

/-! ## Decoding -/

theorem decodeFields_of_static (ht : ∀ t ∈ ts, t.isDynamic = false) (base other : Nat) :
    decodeFields data base cursor ts = decodeFields data other cursor ts := by
  induction ts generalizing cursor with
  | nil => rfl
  | cons t ts ih =>
    have hplace (base : Nat) : Tuple.place data base cursor t.slot = .ok cursor :=
      (place_static_iff (ht t List.mem_cons_self)).mpr rfl
    rw [decodeFields_cons, decodeFields_cons, decodeField, decodeField, hplace, hplace,
      ih fun u hu => ht u (List.mem_cons_of_mem t hu)]

theorem room_of_items (hlen : data.length < 2 ^ 63) (hd : elem.isDynamic = false) (hn : 1 ≤ n)
    (h : Runs (decodeFields data base cursor (List.replicate n elem)) (.ok ws) k) :
    cursor + n * elem.headSize ≤ data.length := by
  induction n, hn using Nat.le_induction generalizing cursor ws k with
  | base =>
    obtain ⟨v, -, i, -, hfield, -, -, -⟩ := runs_cons_iff.mp h
    obtain ⟨p, hp, hv⟩ := runs_field_iff.mp hfield
    obtain rfl := (place_static_iff hd).mp hp
    rw [headSize_eq hd, Nat.one_mul]
    exact room_of_runs hlen hd hv
  | succ n hn ih =>
    obtain ⟨-, vs, -, j, -, hrest, -, -⟩ := runs_cons_iff.mp h
    have hroom := ih hrest
    rw [Nat.succ_mul]
    omega

theorem runs_staticArray_iff (hlen : data.length < 2 ^ 63) (hd : elem.isDynamic = false) (hn : 1 ≤ n) :
    Runs (decodeFields data base cursor [.fixedArray elem n]) (.ok [.array ws]) k ↔
      Runs (decodeFields data base cursor (List.replicate n elem)) (.ok ws) k := by
  have hdarray : (ParamType.fixedArray elem n).isDynamic = false := hd
  rw [decodeFields_of_static (ParamType.forall_items hd) base cursor]
  constructor
  · intro h
    obtain ⟨_, _, i, _, hfield, hnil, ⟨⟩, rfl⟩ := runs_cons_iff.mp h
    obtain ⟨-, rfl⟩ := runs_nil_iff.mp hnil
    obtain ⟨p, hp, hv⟩ := runs_field_iff.mp hfield
    obtain rfl := (place_static_iff hdarray).mp hp
    obtain ⟨-, _, hitems, ⟨⟩⟩ := runs_fixedArray_iff.mp hv
    exact hitems
  · intro h
    have hroom := room_of_items hlen hd hn h
    rw [Nat.mul_comm] at hroom
    have hcheck : Payload.checkRoom elem.headSize n data cursor = .ok () :=
      Payload.checkRoom_ok_iff.mpr (by omega)
    have harray : Runs (decodeAt data (.fixedArray elem n) cursor) (.ok (.array ws)) k :=
      runs_fixedArray_iff.mpr ⟨hcheck, ws, h, rfl⟩
    have hfield : Runs (decodeField data base cursor (.fixedArray elem n)) (.ok (.array ws)) k :=
      runs_field_iff.mpr ⟨cursor, (place_static_iff hdarray).mpr rfl, harray⟩
    exact runs_cons_iff.mpr ⟨_, [], k, 0, hfield, runs_nil_iff.mpr ⟨rfl, rfl⟩, rfl, rfl⟩

theorem runs_items_append_iff (hlen : data.length < 2 ^ 63) (hd : elem.isDynamic = false) (hn : 1 ≤ n)
    (hws : ws.length = n) :
    Runs (decodeFields data base cursor ([.fixedArray elem n] ++ after)) (.ok ([.array ws] ++ back)) k ↔
      Runs (decodeFields data base cursor (List.replicate n elem ++ after)) (.ok (ws ++ back)) k := by
  have hitems : (List.replicate n elem).length = ws.length := by rw [List.length_replicate, hws]
  have hsize {i : Nat} (h : Runs (decodeFields data base cursor (List.replicate n elem)) (.ok ws) i) :
      Tuple.headSize ([ParamType.fixedArray elem n].map ParamType.slot) =
        Tuple.headSize ((List.replicate n elem).map ParamType.slot) := by
    have hroom := room_of_items hlen hd hn h
    have hmax := lt_maxSize hlen
    exact headSize_items hd (by omega)
  rw [runs_append_iff rfl, runs_append_iff hitems]
  constructor
  · rintro ⟨i, j, harray, hback, rfl⟩
    have h := (runs_staticArray_iff hlen hd hn).mp harray
    exact ⟨i, j, h, hsize h ▸ hback, rfl⟩
  · rintro ⟨i, j, h, hback, rfl⟩
    exact ⟨i, j, (runs_staticArray_iff hlen hd hn).mpr h, (hsize h).symm ▸ hback, rfl⟩

theorem decode_items_iff (hlen : data.length < 2 ^ 63) (hd : elem.isDynamic = false) (hn : 1 ≤ n)
    (hws : ws.length = n) (hfront : before.length = front.length) :
    decode (before ++ [.fixedArray elem n] ++ after) data = .ok (front ++ [.array ws] ++ back) ↔
      decode (before ++ List.replicate n elem ++ after) data = .ok (front ++ ws ++ back) := by
  simp only [List.append_assoc, decode_ok_iff hlen, runs_append_iff hfront, runs_items_append_iff hlen hd hn hws]

/-- A static array among parameters is the same as its items as parameters: the same values of the
others and of the items are encoded as the same bytes, and decoded from the same data, within the same
budget. `front` are the values of `before`, so that the array is the value of its own type. -/
theorem array_as_items (elem : ParamType) (n : Nat) (before after : List ParamType) (front ws back : List Value)
    (hd : elem.isDynamic = false) (hn : 1 ≤ n) (hws : ws.length = n) (hfront : before.length = front.length) :
    (∀ b, encode (before ++ [.fixedArray elem n] ++ after) (front ++ [.array ws] ++ back) = .ok b ↔
      encode (before ++ List.replicate n elem ++ after) (front ++ ws ++ back) = .ok b) ∧
    ∀ data, data.length < 2 ^ 63 →
      (decode (before ++ [.fixedArray elem n] ++ after) data = .ok (front ++ [.array ws] ++ back) ↔
        decode (before ++ List.replicate n elem ++ after) data = .ok (front ++ ws ++ back)) :=
  ⟨fun _ => encode_items_iff hd hws hfront, fun _ hlen => decode_items_iff hlen hd hn hws hfront⟩

/-- Two pairs of numbers between a text and bytes, and data whose second offset leads into the pairs. -/
theorem array_as_items_pairs :
    let pair := ParamType.fixedArray (.uint 8) 2
    let pairs := [Value.array [.uint 1, .uint 2], .array [.uint 3, .uint 4]]
    let text := Payload.encodeBlob [104, 105]
    let numbers := [1, 2, 3, 4].flatMap (bigEndian wordSize)
    let b := bigEndian wordSize 192 ++ numbers ++ bigEndian wordSize 256 ++ text ++ Payload.encodeBlob [7]
    let data := bigEndian wordSize 192 ++ numbers ++ bigEndian wordSize 32 ++ text
    (pair.isDynamic = false ∧ data.length < 2 ^ 63) ∧
      encode [.string, .fixedArray pair 2, .bytes] [.string "hi", .array pairs, .bytes [7]] = .ok b ∧
      encode [.string, pair, pair, .bytes] ([.string "hi"] ++ pairs ++ [.bytes [7]]) = .ok b ∧
      decode [.string, .fixedArray pair 2, .bytes] data = .ok [.string "hi", .array pairs, .bytes [0]] ∧
      decode [.string, pair, pair, .bytes] data = .ok ([.string "hi"] ++ pairs ++ [.bytes [0]]) := by
  intro pair pairs text numbers b data
  have hlen : data.length < 2 ^ 63 := by decide +kernel
  have henc : encode [.string, .fixedArray pair 2, .bytes] [.string "hi", .array pairs, .bytes [7]] = .ok b :=
    eq_ok_of_toOption (by decide +kernel)
  have hdec : decode [.string, .fixedArray pair 2, .bytes] data = .ok [.string "hi", .array pairs, .bytes [0]] :=
    eq_ok_of_toOption (by decide +kernel)
  refine ⟨⟨rfl, hlen⟩, henc, ?_, hdec, ?_⟩
  · exact ((array_as_items pair 2 [.string] [.bytes] [.string "hi"] pairs [.bytes [7]] rfl (by decide) rfl rfl).1
      b).mp henc
  · exact ((array_as_items pair 2 [.string] [.bytes] [.string "hi"] pairs [.bytes [0]] rfl (by decide) rfl rfl).2
      data hlen).mp hdec

end Calldata
