import Calldata.Proofs.Budget
import Calldata.Proofs.Spans

/-!
# Bytes around the data

The same data may stand inside of other data. A decode of them then ends as it does without the
bytes around them, unless it ended because bytes were missing: both decodes go the same steps, at
places that are the same distance apart, until the first of them ends.
-/

namespace Calldata

namespace Fault

/-- More bytes may help: some were missing, or the budget was too small for these. -/
def Curable : Fault → Prop
  | .shortData _ _ | .tooMuchOutput _ => True
  | _ => False

/-- The fault of the same kind when what was read stands `k` bytes further on. -/
def behind (k : Nat) : Fault → Fault
  | .badLength (.word value offset) => .badLength (.word value (k + offset))
  | e => e

@[simp] theorem behind_zero (e : Fault) : e.behind 0 = e := by
  unfold behind
  split <;> simp

end Fault

variable {α β : Type} {x y : Except Fault α} {a : α} {e : Fault} {k n o p base cursor : Nat}
  {data other bs : Bytes} {t elem : ParamType} {ts : List ParamType}

/-- What `x` ends with is what `y` ends with `k` bytes further on, unless more bytes may help. -/
structure Stays (k : Nat) (x y : Except Fault α) : Prop where
  value (a : α) (h : x = .ok a) : y = .ok a
  fault (e : Fault) (h : x = .error e) (hfinal : ¬ e.Curable) : y = .error (e.behind k)

theorem stays_value (hx : x = .ok a) (hy : y = .ok a) : Stays k x y := by
  subst hx hy
  exact ⟨fun _ h => h, fun _ h => by simp at h⟩

theorem stays_final (hx : x = .error e) (hy : y = .error (e.behind k)) : Stays k x y := by
  subst hx hy
  refine ⟨fun _ h => by simp at h, fun e' h _ => ?_⟩
  rw [Except.error.inj h]

theorem stays_curable (hx : x = .error e) (h : e.Curable) : Stays k x y := by
  subst hx
  refine ⟨fun _ h => by simp at h, fun e' h' hfinal => ?_⟩
  exact absurd (Except.error.inj h' ▸ h) hfinal

theorem Stays.bind {f g : α → Except Fault β} (hx : Stays k x y) (hf : ∀ a, Stays k (f a) (g a)) :
    Stays k (x >>= f) (y >>= g) := by
  cases h : x with
  | ok a =>
    rw [hx.value a h]
    exact hf a
  | error e =>
    by_cases hc : e.Curable
    · exact stays_curable rfl hc
    · rw [hx.fault e h hc]
      exact stays_final rfl rfl

/-! ## Readers -/

theorem Holds.within (hin : Holds other k data) (h : Holds data o bs) : Holds other (k + o) bs where
  le := by
    have := hin.le
    have := h.le
    omega
  take_drop := by
    have hle := h.le
    have hdrop : (other.drop (k + o)).take bs.length = (((other.drop k).take data.length).drop o).take bs.length := by
      rw [List.drop_take, List.take_take, List.drop_drop, Nat.min_eq_left (by omega)]
    rw [hdrop, hin.take_drop, h.take_drop]

theorem curable_of_slice (h : Payload.slice data o n = .error e) : e.Curable := by
  unfold Payload.slice at h
  simp only at h
  split at h
  · rw [← Except.error.inj h]
    trivial
  split at h
  · rw [← Except.error.inj h]
    trivial
  · simp at h

theorem curable_of_word (h : Payload.word data o = .error e) : e.Curable := by
  unfold Payload.word at h
  cases hs : Payload.slice data o wordSize with
  | ok bs => simp [hs, Except.map] at h
  | error e' =>
    simp only [hs, Except.map, Except.error.injEq] at h
    exact h ▸ curable_of_slice hs

section Reading

variable (hin : Holds other k data) (hmax : other.length ≤ maxSize)
include hin hmax

theorem stays_slice (o n : Nat) : Stays k (Payload.slice data o n) (Payload.slice other (k + o) n) := by
  cases hs : Payload.slice data o n with
  | error e => exact stays_curable rfl (curable_of_slice hs)
  | ok bs =>
    obtain ⟨hlen, -, hb⟩ := Payload.slice_ok_iff.mp hs
    have hthere := hin.within hb
    have hle := hthere.le
    exact stays_value rfl (Payload.slice_ok_iff.mpr ⟨hlen, by omega, hthere⟩)

theorem stays_word (o : Nat) : Stays k (Payload.word data o) (Payload.word other (k + o)) := by
  apply (stays_slice hin hmax o wordSize).bind
  intro bs
  exact stays_value rfl rfl

theorem stays_size (o : Nat) : Stays k (Payload.size data o) (Payload.size other (k + o)) := by
  rw [Payload.size_eq, Payload.size_eq]
  apply (stays_word hin hmax o).bind
  intro w
  split
  · exact stays_final rfl rfl
  · exact stays_value rfl rfl

theorem stays_blob (o : Nat) : Stays k (Payload.blob data o) (Payload.blob other (k + o)) := by
  rw [Payload.blob_eq, Payload.blob_eq]
  apply (stays_size hin hmax o).bind
  intro n
  rw [Nat.add_assoc]
  exact stays_slice hin hmax (o + wordSize) n

theorem stays_text (o : Nat) : Stays k (Payload.text data o) (Payload.text other (k + o)) := by
  rw [Payload.text_eq, Payload.text_eq]
  apply (stays_blob hin hmax o).bind
  intro bs
  cases Text.ofUtf8 bs with
  | ok s => exact stays_value rfl rfl
  | error cause => exact stays_final rfl rfl

end Reading

theorem curable_of_checkRoom {slotSize count : Nat} (h : Payload.checkRoom slotSize count data o = .error e) :
    e.Curable := by
  unfold Payload.checkRoom at h
  simp only at h
  split at h
  · rw [← Except.error.inj h]
    trivial
  · simp at h

theorem stays_checkRoom (hin : Holds other k data) (hlen : data.length < maxSize) (slotSize count o : Nat) :
    Stays k (Payload.checkRoom slotSize count data o) (Payload.checkRoom slotSize count other (k + o)) := by
  cases hroom : Payload.checkRoom slotSize count data o with
  | error e => exact stays_curable rfl (curable_of_checkRoom hroom)
  | ok _ =>
    rw [Payload.checkRoom_ok_iff] at hroom
    have hle := hin.le
    exact stays_value rfl (Payload.checkRoom_ok_iff.mpr (by omega))

/-! ## Steps -/

/-- Both steps end at the same cost and in the same way, unless more bytes may help the first. -/
inductive StaysRun (k : Nat) (m m' : Decode α) : Prop
  | value (a : α) (n : Nat) (here : Runs m (.ok a) n) (there : Runs m' (.ok a) n)
  | final (e : Fault) (n : Nat) (here : Runs m (.error e) n) (there : Runs m' (.error (e.behind k)) n)
  | curable (e : Fault) (n : Nat) (here : Runs m (.error e) n) (curable : e.Curable)

theorem staysRun_of_runs {m : Decode α} (h : Runs m (.ok a) n) : StaysRun k m m := .value a n h h

theorem staysRun_lift (h : Stays k x y) : StaysRun k (liftM x : Decode α) (liftM y : Decode α) := by
  cases hx : x with
  | ok a => exact .value a 0 (runs_lift _) (h.value a hx ▸ runs_lift _)
  | error e =>
    by_cases hc : e.Curable
    · exact .curable e 0 (runs_lift _) hc
    · exact .final e 0 (runs_lift _) (h.fault e hx hc ▸ runs_lift _)

theorem StaysRun.bind {m m' : Decode α} {f f' : α → Decode β} (hm : StaysRun k m m')
    (hf : ∀ a, StaysRun k (f a) (f' a)) : StaysRun k (m >>= f) (m' >>= f') := by
  cases hm with
  | final e n here there => exact .final e n here.bind_error there.bind_error
  | curable e n here curable => exact .curable e n here.bind_error curable
  | value a n here there =>
    cases hf a with
    | value b j here' there' => exact .value b (n + j) (here.bind here') (there.bind there')
    | final e j here' there' => exact .final e (n + j) (here.bind here') (there.bind there')
    | curable e j here' curable => exact .curable e (n + j) (here.bind here') curable

theorem staysRun_payFor (cost : α → Nat) (h : Stays k x y) : StaysRun k (payFor x cost) (payFor y cost) := by
  unfold payFor
  apply (staysRun_lift h).bind
  intro a
  exact staysRun_of_runs ((runs_spend (cost a)).bind (runs_pure a))

theorem StaysRun.map {m m' : Decode α} (g : α → β) (h : StaysRun k m m') :
    StaysRun k (m >>= fun a => pure (g a)) (m' >>= fun a => pure (g a)) :=
  h.bind fun a => staysRun_of_runs (runs_pure (g a))

theorem StaysRun.run' {m m' : Decode α} (hlen : other.length < 2 ^ 63) (hle : data.length ≤ other.length)
    (h : StaysRun k m m') : Stays k (m.run' (Budget.ofPayload data)) (m'.run' (Budget.ofPayload other)) := by
  have hdata : data.length < 2 ^ 63 := by omega
  -- More data leave a greater budget, so what could be paid for here can be paid for there.
  have hwords : wordsFor data.length ≤ wordsFor other.length := by
    simp only [wordsFor, wordSize]
    omega
  cases h with
  | value a n here there =>
    rw [run_eq_of_runs hdata here, run_eq_of_runs hlen there]
    split
    · rw [if_pos (by omega)]
      exact stays_value rfl rfl
    · exact stays_curable rfl trivial
  | final e n here there =>
    rw [run_eq_of_runs hdata here, run_eq_of_runs hlen there]
    split
    · rw [if_pos (by omega)]
      exact stays_final rfl rfl
    · exact stays_curable rfl trivial
  | curable e n here curable =>
    rw [run_eq_of_runs hdata here]
    split
    · exact stays_curable rfl curable
    · exact stays_curable rfl trivial

/-! ## Values and tuples -/

/-- Decoding the type stays the same, wherever it starts. -/
def StaysType (k : Nat) (data other : Bytes) (t : ParamType) : Prop :=
  ∀ o, StaysRun k (decodeAt data t o) (decodeAt other t (k + o))

theorem curable_of_beyond (hd : t.isDynamic = true) (hlen : data.length < maxSize) (hp : data.length < p) :
    ∃ e, Runs (decodeAt data t p) (.error e) 0 ∧ e.Curable := by
  -- A dynamic value is read where it starts, and nothing is there.
  have hsize : ∃ e, Payload.size data p = .error e ∧ e.Curable := by
    unfold Payload.size
    cases hw : Payload.word data p with
    | error e => exact ⟨e, rfl, curable_of_word hw⟩
    | ok w =>
      have hle := (Payload.word_ok_iff.mp hw).2.le
      omega
  obtain ⟨e, he, hc⟩ := hsize
  cases t with
  | bytes =>
    rw [decodeAt_bytes]
    exact ⟨e, (runs_payFor_error _ (by simp only [Payload.blob, he])).bind_error, hc⟩
  | string =>
    rw [decodeAt_string]
    exact ⟨e, (runs_payFor_error _ (by simp only [Payload.text, Payload.blob, he])).bind_error, hc⟩
  | array elem =>
    rw [decodeAt_array]
    exact ⟨e, (runs_payFor_error _ he).bind_error, hc⟩
  | fixedArray elem n =>
    rw [decodeAt_fixedArray]
    cases hroom : Payload.checkRoom elem.headSize n data p with
    | error e => exact ⟨e, (runs_lift _).bind_error, curable_of_checkRoom hroom⟩
    | ok _ =>
      have hle := Payload.checkRoom_ok_iff.mp hroom
      omega
  | int | uint | bool | identifier | bytes32 | function => simp [ParamType.isDynamic] at hd

theorem decodeField_of_place (h : Tuple.place data base cursor t.slot = .ok p) :
    decodeField data base cursor t = decodeAt data t p := by
  unfold decodeField
  rw [h]
  rfl

theorem runs_field_error (h : Tuple.place data base cursor t.slot = .error e) :
    Runs (decodeField data base cursor t) (.error e) 0 := by
  unfold decodeField
  rw [h]
  exact (runs_lift _).bind_error

theorem place_dynamic (hd : t.isDynamic = true) :
    Tuple.place data base cursor t.slot = Tuple.locate data base cursor := if_pos hd

theorem curable_of_offset_beyond (hd : t.isDynamic = true) (hlen : data.length < maxSize)
    (hn : Payload.size data cursor = .ok n) (hout : data.length < base + n) :
    ∃ e, Runs (decodeField data base cursor t) (.error e) 0 ∧ e.Curable := by
  -- The offset may lead to a value that only other data have.
  by_cases hsum : maxSize < base + n
  · have hplace : Tuple.place data base cursor t.slot = .error (.shortData maxSize data.length) := by
      simp only [place_dynamic hd, Tuple.locate, hn, if_pos hsum]
    exact ⟨_, runs_field_error hplace, trivial⟩
  · have hplace : Tuple.place data base cursor t.slot = .ok (base + n) :=
      (place_dynamic_iff hd).mpr ⟨n, hn, by omega, rfl⟩
    rw [decodeField_of_place hplace]
    exact curable_of_beyond hd hlen hout

theorem staysRun_field (hin : Holds other k data) (hlen : other.length < 2 ^ 63) (ht : StaysType k data other t) :
    StaysRun k (decodeField data base cursor t) (decodeField other (k + base) (k + cursor) t) := by
  have hmax := lt_maxSize hlen
  have hle := hin.le
  cases hd : t.isDynamic with
  | false =>
    rw [decodeField_of_place ((place_static_iff hd).mpr rfl), decodeField_of_place ((place_static_iff hd).mpr rfl)]
    exact ht cursor
  | true =>
    have hsize := stays_size hin (by omega) cursor
    cases hn : Payload.size data cursor with
    | error e =>
      have hhere : Tuple.place data base cursor t.slot = .error e := by
        simp only [place_dynamic hd, Tuple.locate, hn]
      by_cases hc : e.Curable
      · exact .curable e 0 (runs_field_error hhere) hc
      · have hthere : Tuple.place other (k + base) (k + cursor) t.slot = .error (e.behind k) := by
          simp only [place_dynamic hd, Tuple.locate, hsize.fault e hn hc]
        exact .final e 0 (runs_field_error hhere) (runs_field_error hthere)
    | ok n =>
      by_cases hinside : base + n ≤ data.length
      · have hhere : Tuple.place data base cursor t.slot = .ok (base + n) :=
          (place_dynamic_iff hd).mpr ⟨n, hn, by omega, rfl⟩
        have hthere : Tuple.place other (k + base) (k + cursor) t.slot = .ok (k + (base + n)) :=
          (place_dynamic_iff hd).mpr ⟨n, hsize.value n hn, by omega, by omega⟩
        rw [decodeField_of_place hhere, decodeField_of_place hthere]
        exact ht (base + n)
      · obtain ⟨e, he, hc⟩ := curable_of_offset_beyond hd (by omega) hn (Nat.lt_of_not_le hinside)
        exact .curable e 0 he hc

theorem staysRun_fields (hin : Holds other k data) (hlen : other.length < 2 ^ 63)
    (ht : ∀ t ∈ ts, StaysType k data other t) :
    StaysRun k (decodeFields data base cursor ts) (decodeFields other (k + base) (k + cursor) ts) := by
  induction ts generalizing cursor with
  | nil => exact staysRun_of_runs (runs_pure [])
  | cons t ts ih =>
    rw [decodeFields_cons, decodeFields_cons]
    apply (staysRun_field hin hlen (ht t List.mem_cons_self)).bind
    intro v
    rw [Nat.add_assoc]
    exact (ih fun u hu => ht u (List.mem_cons_of_mem t hu)).map (v :: ·)

theorem staysRun_items (hin : Holds other k data) (hlen : other.length < 2 ^ 63) (ht : StaysType k data other elem)
    (n o : Nat) :
    StaysRun k (do
      liftM (Payload.checkRoom elem.headSize n data o)
      let vs ← decodeFields data o o (List.replicate n elem)
      pure (Value.array vs)) (do
      liftM (Payload.checkRoom elem.headSize n other (k + o))
      let vs ← decodeFields other (k + o) (k + o) (List.replicate n elem)
      pure (Value.array vs)) := by
  have hmax := lt_maxSize hlen
  have hle := hin.le
  apply (staysRun_lift (stays_checkRoom hin (by omega) elem.headSize n o)).bind
  intro _
  exact (staysRun_fields hin hlen (ParamType.forall_items ht)).map Value.array

theorem staysType (hin : Holds other k data) (hlen : other.length < 2 ^ 63) (t : ParamType) :
    StaysType k data other t := by
  have hmax := (lt_maxSize hlen).le
  induction t using ParamType.codecInduction with
  | scalar t ht =>
    intro o
    rw [decodeAt_scalar ht, decodeAt_scalar ht]
    exact (staysRun_payFor _ (stays_word hin hmax o)).map t.valueOfWord
  | function =>
    intro o
    exact .final .functionNotDecodable 0 (runs_lift (.error _)) (runs_lift (.error _))
  | bytes =>
    intro o
    rw [decodeAt_bytes, decodeAt_bytes]
    exact (staysRun_payFor _ (stays_blob hin hmax o)).map Value.bytes
  | string =>
    intro o
    rw [decodeAt_string, decodeAt_string]
    exact (staysRun_payFor _ (stays_text hin hmax o)).map Value.string
  | fixedArray elem n ih =>
    intro o
    rw [decodeAt_fixedArray, decodeAt_fixedArray]
    exact staysRun_items hin hlen ih n o
  | array elem ih =>
    intro o
    rw [decodeAt_array, decodeAt_array, Nat.add_assoc]
    apply (staysRun_payFor _ (stays_size hin hmax o)).bind
    intro n
    exact staysRun_items hin hlen ih n (o + wordSize)

/-- Bytes in front of the data and behind them change nothing: a value is decoded to the same value,
and a fault that no bytes can cure is the same fault, at its new place. -/
theorem decode_surrounded (data pre post : Bytes) (hlen : (pre ++ data ++ post).length < 2 ^ 63) :
    (∀ t offset,
      (∀ v, decodeValue t data offset = .ok v →
        decodeValue t (pre ++ data ++ post) (pre.length + offset) = .ok v) ∧
      ∀ e, decodeValue t data offset = .error e → ¬ e.Curable →
        decodeValue t (pre ++ data ++ post) (pre.length + offset) = .error (e.behind pre.length)) ∧
    ∀ types,
      (∀ vs, decode types data = .ok vs → decode types (data ++ post) = .ok vs) ∧
      ∀ e, decode types data = .error e → ¬ e.Curable → decode types (data ++ post) = .error e := by
  constructor
  · intro t offset
    have hin : Holds (pre ++ data ++ post) pre.length data := holds_framed pre data post
    have hle : data.length ≤ (pre ++ data ++ post).length := by simp only [List.length_append]; omega
    obtain ⟨hvalue, hfault⟩ := (staysType hin hlen t offset).run' hlen hle
    exact ⟨hvalue, hfault⟩
  · intro types
    have hlen' : (data ++ post).length < 2 ^ 63 := by
      simp only [List.length_append] at *
      omega
    have hin : Holds (data ++ post) 0 data := holds_framed [] data post
    have hrun : StaysRun 0 (decodeTuple types data) (decodeTuple types (data ++ post)) :=
      staysRun_fields hin hlen' fun t _ => staysType hin hlen' t
    have hle : data.length ≤ (data ++ post).length := by simp
    obtain ⟨hvalue, hfault⟩ := hrun.run' hlen' hle
    refine ⟨hvalue, fun e h hfinal => ?_⟩
    rw [← Fault.behind_zero e]
    exact hfault e h hfinal

theorem decode_surrounded_hostile :
    let data := Payload.encodeBlob [104, 105] ++ bigEndian wordSize (maxSize + 1)
    let pre := zeros 7
    let post := [1, 2, 3]
    (pre ++ data ++ post).length < 2 ^ 63 ∧
      decodeValue .string (pre ++ data ++ post) 7 = .ok (.string "hi") ∧
      decodeValue .bytes (pre ++ data ++ post) 71 = .error (.badLength (.word (maxSize + 1) 71)) := by
  intro data pre post
  have hlen : (pre ++ data ++ post).length < 2 ^ 63 := by decide +kernel
  have htext : decodeValue .string data 0 = .ok (.string "hi") := eq_ok_of_toOption (by decide +kernel)
  have hword : Payload.word data 64 = .ok (BitVec.ofNat 256 (maxSize + 1)) := eq_ok_of_toOption (by decide +kernel)
  have hsize : Payload.size data 64 = .error (.badLength (.word (maxSize + 1) 64)) := by
    unfold Payload.size
    simp only [hword]
    exact if_pos (by decide)
  have hruns : Runs (decodeAt data .bytes 64) (.error (.badLength (.word (maxSize + 1) 64))) 0 := by
    rw [decodeAt_bytes]
    exact (runs_payFor_error _ (by simp only [Payload.blob, hsize])).bind_error
  have hbytes : decodeValue .bytes data 64 = .error (.badLength (.word (maxSize + 1) 64)) := by
    unfold decodeValue
    rw [run_eq_of_runs (by decide +kernel) hruns]
    exact if_pos (Nat.zero_le _)
  have hvalues := (decode_surrounded data pre post hlen).1
  exact ⟨hlen, (hvalues .string 0).1 _ htext, (hvalues .bytes 64).2 _ hbytes id⟩

end Calldata
