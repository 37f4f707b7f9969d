import Calldata.Proofs.Decoding
import Calldata.Proofs.Guarded

/-!
# Decoding is safe

On data that fit into memory, the decoder of a machine is the decoder: it ends in no trap, whatever
the bytes and the offset are. What carries the proof is that a value is returned only when its slot
is inside of the data, so that the next sum is small.
-/

namespace Calldata

/-- The faults that reading the data can have. -/
def Fault.OfReading (data : Bytes) : Fault → Prop
  | .shortData needed available => available = data.length ∧ available < needed
  | .badLength (.word value _) => maxSize < value
  | .badUtf8 _ | .functionNotDecodable | .tooMuchOutput _ => True
  | _ => False

variable {α β : Type} {data : Bytes} {P : α → Prop} {Q : β → Prop} {t elem : ParamType}
  {ts : List ParamType} {o n base cursor : Nat}

/-- Both end with the same value, which has the property, or with the same fault of reading. -/
inductive Ends (data : Bytes) (P : α → Prop) (g : Except Stop α) (m : Except Fault α) : Prop
  | value (a : α) (guarded : g = .ok a) (plain : m = .ok a) (property : P a)
  | fault (e : Fault) (guarded : g = .error (.fault e)) (plain : m = .error e)
      (reading : e.OfReading data)

/-- Both steps end in the same way, whatever the budget. -/
def Safe (data : Bytes) (P : α → Prop) (g : Guarded α) (m : Decode α) : Prop :=
  ∀ b, Ends data (fun r => P r.1) (g.run b) (m.run b)

/-! ## Steps -/

theorem Ends.imp {P' : α → Prop} {g : Except Stop α} {m : Except Fault α} (h : Ends data P g m)
    (himp : ∀ a, P a → P' a) : Ends data P' g m := by
  cases h with
  | value a guarded plain property => exact .value a guarded plain (himp a property)
  | fault e guarded plain reading => exact .fault e guarded plain reading

theorem Safe.imp {P' : α → Prop} {g : Guarded α} {m : Decode α} (h : Safe data P g m)
    (himp : ∀ a, P a → P' a) : Safe data P' g m :=
  fun b => (h b).imp fun r => himp r.1

theorem Ends.bind {g : Except Stop α} {m : Except Fault α} {g' : α → Except Stop β} {m' : α → Except Fault β}
    (h : Ends data P g m) (h' : ∀ a, P a → Ends data Q (g' a) (m' a)) : Ends data Q (g >>= g') (m >>= m') := by
  cases h with
  | value a guarded plain property =>
    rw [guarded, plain]
    exact h' a property
  | fault e guarded plain reading =>
    rw [guarded, plain]
    exact .fault e rfl rfl reading

theorem safe_pure {a : α} (h : P a) : Safe data P (pure a) (pure a) :=
  fun b => .value (a, b) rfl rfl h

theorem safe_lift {g : Except Stop α} {m : Except Fault α} (h : Ends data P g m) :
    Safe data P (liftM g) (liftM m) := by
  intro b
  cases h with
  | value a guarded plain property =>
    subst guarded plain
    exact .value (a, b) rfl rfl property
  | fault e guarded plain reading =>
    subst guarded plain
    exact .fault e rfl rfl reading

theorem Safe.bind {g : Guarded α} {m : Decode α} {g' : α → Guarded β} {m' : α → Decode β}
    (h : Safe data P g m) (h' : ∀ a, P a → Safe data Q (g' a) (m' a)) :
    Safe data Q (g >>= g') (m >>= m') := by
  intro b
  rw [StateT.run_bind, StateT.run_bind]
  cases h b with
  | value r guarded plain property =>
    rw [guarded, plain]
    exact h' r.1 property r.2
  | fault e guarded plain reading =>
    rw [guarded, plain]
    exact .fault e rfl rfl reading

theorem Safe.bind_known {x : Except Stop α} {a : α} {g : α → Guarded β} {m : Decode β} (hx : x = .ok a)
    (h : Safe data Q (g a) m) : Safe data Q (liftM x >>= g) m := by
  subst hx
  exact h

theorem safe_spend (words : Nat) : Safe data (fun _ => True) (Guarded.spend words) (spend words) := by
  intro b
  change Ends data _ (Guarded.spend words b) ((b.charge words).map ((), ·))
  unfold Guarded.spend
  cases hb : b.charge words with
  | ok b' => exact .value ((), b') rfl rfl trivial
  | error e =>
    refine .fault e rfl rfl ?_
    cases b with
    | unlimited => simp [Budget.charge] at hb
    | limited limit remaining =>
      rw [Budget.charge] at hb
      split at hb
      · simp at hb
      · obtain rfl := Except.error.inj hb
        trivial

theorem Safe.run' {g : Guarded α} {m : Decode α} (h : Safe data P g m) (b : Budget) :
    Ends data P (g.run' b) (m.run' b) := by
  change Ends data P (Prod.fst <$> g.run b) (Prod.fst <$> m.run b)
  cases h b with
  | value r guarded plain property =>
    rw [guarded, plain]
    exact .value r.1 rfl rfl property
  | fault e guarded plain reading =>
    rw [guarded, plain]
    exact .fault e rfl rfl reading

/-! ## Readers -/

theorem checkedAdd_of_le {a b : Nat} (h : a + b ≤ maxSize) : Guarded.checkedAdd a b = some (a + b) := if_pos h

theorem checkedAdd_of_lt {a b : Nat} (h : maxSize < a + b) : Guarded.checkedAdd a b = none :=
  if_neg (Nat.not_le.mpr h)

theorem add_of_le {a b : Nat} (h : a + b ≤ maxSize) : Guarded.add a b = .ok (a + b) := if_pos h

theorem entries_of_le {count : Nat} {entry : α} (h : wordSize * count ≤ data.length) :
    Guarded.entries data count entry = .ok (List.replicate count entry) := by
  have hle : count ≤ data.length / wordSize := by
    rw [Nat.le_div_iff_mul_le (by decide), Nat.mul_comm]
    exact h
  exact if_pos hle

theorem ends_slice (hlen : data.length < 2 ^ 63) (o n : Nat) :
    Ends data (fun bs => bs.length = n ∧ o + n ≤ data.length) (Guarded.slice data o n)
      (Payload.slice data o n) := by
  have hmax := lt_maxSize hlen
  unfold Guarded.slice Payload.slice
  by_cases hstop : maxSize < o + n
  · rw [checkedAdd_of_lt hstop]
    exact .fault _ rfl (if_pos hstop) ⟨rfl, hmax⟩
  · rw [checkedAdd_of_le (by omega)]
    simp only [if_neg hstop]
    by_cases hend : data.length < o + n
    · simp only [if_pos hend]
      exact .fault _ rfl rfl ⟨rfl, hend⟩
    · simp only [if_neg hend]
      have hin : o ≤ o + n ∧ o + n ≤ data.length := by omega
      have hbetween : Guarded.between data o (o + n) = .ok ((data.drop o).take n) := by
        rw [Guarded.between, if_pos hin, Nat.add_sub_cancel_left]
      refine .value _ hbetween rfl ⟨?_, hin.2⟩
      rw [List.length_take, List.length_drop]
      omega

theorem ends_word (hlen : data.length < 2 ^ 63) (o : Nat) :
    Ends data (fun _ => o + wordSize ≤ data.length) (Guarded.word data o) (Payload.word data o) :=
  (ends_slice hlen o wordSize).bind fun bs h => .value (wordOfBytes bs) rfl rfl h.2

theorem ends_size (hlen : data.length < 2 ^ 63) (o : Nat) :
    Ends data (fun n => n ≤ maxSize ∧ o + wordSize ≤ data.length) (Guarded.size data o) (Payload.size data o) := by
  rw [Payload.size_eq]
  refine (ends_word hlen o).bind fun w h => ?_
  by_cases hw : maxSize < w.toNat
  · exact .fault _ (if_pos hw) (if_pos hw) hw
  · exact .value w.toNat (if_neg hw) (if_neg hw) ⟨by omega, h⟩

theorem ends_blob (hlen : data.length < 2 ^ 63) (o : Nat) :
    Ends data (fun bs => bs.length ≤ data.length) (Guarded.blob data o) (Payload.blob data o) := by
  have hmax := lt_maxSize hlen
  rw [Payload.blob_eq]
  refine (ends_size hlen o).bind fun n h => ?_
  rw [add_of_le (by omega)]
  apply (ends_slice hlen (o + wordSize) n).imp
  intro bs hbs
  omega

theorem ends_text (hlen : data.length < 2 ^ 63) (o : Nat) :
    Ends data (fun s => (Text.utf8 s).length ≤ data.length) (Guarded.text data o) (Payload.text data o) := by
  rw [Payload.text_eq]
  refine (ends_blob hlen o).bind fun bs h => ?_
  cases hs : Text.ofUtf8 bs with
  | ok s => exact .value s rfl rfl (Text.utf8_of_ofUtf8 hs ▸ h)
  | error cause => exact .fault _ rfl rfl trivial

theorem checked_room (slotSize count start : Nat) :
    ((Guarded.checkedMul slotSize count).bind (Guarded.checkedAdd · start)).getD maxSize =
      min (slotSize * count + start) maxSize := by
  unfold Guarded.checkedMul
  by_cases hmul : slotSize * count ≤ maxSize
  · rw [if_pos hmul, Option.bind_some]
    by_cases hadd : slotSize * count + start ≤ maxSize
    · rw [checkedAdd_of_le hadd, Nat.min_eq_left hadd, Option.getD_some]
    · rw [checkedAdd_of_lt (by omega), Nat.min_eq_right (by omega), Option.getD_none]
  · rw [if_neg hmul, Option.bind_none, Option.getD_none, Nat.min_eq_right (by omega)]

theorem ends_checkRoom (hlen : data.length < 2 ^ 63) (slotSize count start : Nat) :
    Ends data (fun _ => slotSize * count + start ≤ data.length)
      (Guarded.checkRoom slotSize count data start) (Payload.checkRoom slotSize count data start) := by
  have hmax := lt_maxSize hlen
  unfold Guarded.checkRoom Payload.checkRoom
  rw [checked_room]
  by_cases hroom : data.length < min (slotSize * count + start) maxSize
  · exact .fault _ (if_pos hroom) (if_pos hroom) ⟨rfl, hroom⟩
  · exact .value () (if_neg hroom) (if_neg hroom) (by omega)

theorem Tuple.locate_eq (data : Bytes) (base cursor : Nat) : Tuple.locate data base cursor = (do
    let offset ← Payload.size data cursor
    if maxSize < base + offset then .error (.shortData maxSize data.length) else pure (base + offset)) := by
  unfold Tuple.locate
  cases Payload.size data cursor <;> rfl

theorem ends_locate (hlen : data.length < 2 ^ 63) (base cursor : Nat) :
    Ends data (fun p => p ≤ maxSize ∧ cursor + wordSize ≤ data.length) (Guarded.locate data base cursor)
      (Tuple.locate data base cursor) := by
  rw [Tuple.locate_eq]
  refine (ends_size hlen cursor).bind fun k h => ?_
  by_cases hsum : maxSize < base + k
  · rw [checkedAdd_of_lt hsum]
    exact .fault _ rfl (if_pos hsum) ⟨rfl, lt_maxSize hlen⟩
  · rw [checkedAdd_of_le (by omega)]
    exact .value (base + k) rfl (if_neg hsum) ⟨by omega, h.2⟩

theorem ends_place (hlen : data.length < 2 ^ 63) (base cursor : Nat) (t : ParamType) :
    Ends data (fun p => if t.isDynamic then cursor + wordSize ≤ data.length else p = cursor)
      (Guarded.place data base cursor t.slot) (Tuple.place data base cursor t.slot) := by
  have hslot : t.slot.dynamic = t.isDynamic := rfl
  unfold Guarded.place Tuple.place
  rw [hslot]
  cases t.isDynamic with
  | false => exact .value cursor rfl rfl rfl
  | true => exact (ends_locate hlen base cursor).imp fun p h => h.2

/-! ## Values and tuples -/

/-- What is known of the data once a value of the type was read at the offset: the slot of a static
value is inside of them. -/
def Covered (data : Bytes) (t : ParamType) (o : Nat) : Prop := t.isDynamic = false → o + t.headSize ≤ data.length

/-- Decoding the type is safe, wherever it starts. -/
def SafeType (data : Bytes) (t : ParamType) : Prop :=
  ∀ o, Safe data (fun _ => Covered data t o) (Guarded.decodeAt data t o) (decodeAt data t o)

theorem safe_fields (hlen : data.length < 2 ^ 63) (ht : ∀ t ∈ ts, SafeType data t) :
    Safe data (fun _ => True) (Guarded.decodeFields data base cursor ts) (decodeFields data base cursor ts) := by
  have hmax := lt_maxSize hlen
  induction ts generalizing cursor with
  | nil => exact safe_pure trivial
  | cons t ts ih =>
    rw [decodeFields_cons]
    unfold decodeField
    rw [bind_assoc]
    refine (safe_lift (ends_place hlen base cursor t)).bind fun p hp => ?_
    refine (ht t List.mem_cons_self p).bind fun v hv => ?_
    -- The slot that was read is inside of the data, so the next one starts there at the latest.
    have hnext : cursor + t.headSize ≤ data.length := by
      cases hd : t.isDynamic with
      | true =>
        rw [if_pos hd] at hp
        rwa [ParamType.headSize_of_isDynamic hd]
      | false =>
        rw [if_neg (by simp [hd])] at hp
        exact hp ▸ hv hd
    refine Safe.bind_known (add_of_le (Nat.le_trans hnext (Nat.le_of_lt hmax))) ?_
    refine (ih fun u hu => ht u (List.mem_cons_of_mem t hu)).bind fun vs _ => ?_
    exact safe_pure trivial

theorem safe_items (hlen : data.length < 2 ^ 63) (hsize : wordSize ≤ elem.headSize) (ht : SafeType data elem)
    (n o : Nat) :
    Safe data (fun _ => elem.headSize * n + o ≤ data.length)
      (Guarded.decodeItems data elem.slot (Guarded.decodeAt data elem) n o) (do
        liftM (Payload.checkRoom elem.headSize n data o)
        let vs ← decodeFields data o o (List.replicate n elem)
        pure (Value.array vs)) := by
  unfold Guarded.decodeItems
  refine (safe_lift (ends_checkRoom hlen elem.headSize n o)).bind fun _ hroom => ?_
  -- The slots of the items alone take a word each.
  have hslots : wordSize * n ≤ elem.headSize * n := Nat.mul_le_mul_right n hsize
  refine Safe.bind_known (entries_of_le (by omega)) ?_
  have hfields : Safe data (fun _ => True) (Guarded.decodeFields data o o (List.replicate n elem))
      (decodeFields data o o (List.replicate n elem)) := safe_fields hlen (ParamType.forall_items ht)
  unfold Guarded.decodeFields at hfields
  rw [List.map_replicate] at hfields
  exact hfields.bind fun vs _ => safe_pure hroom

theorem guarded_scalar (ht : t.isScalar = true) :
    Guarded.decodeAt data t o = (do
      let w ← Guarded.word data o
      Guarded.spend 1
      pure (t.valueOfWord w)) := by
  cases t <;> first | rfl | simp [ParamType.isScalar] at ht

theorem covered_fixedArray (h : elem.headSize * n + o ≤ data.length) : Covered data (.fixedArray elem n) o := by
  intro hd
  have hdelem : elem.isDynamic = false := hd
  have hle : (ParamType.fixedArray elem n).headSize ≤ elem.headSize * n := by
    simp only [ParamType.headSize, hdelem, hd, ParamType.staticSize, Bool.false_eq_true, if_false]
    exact Nat.min_le_left _ _
  omega

theorem covered_of_dynamic (hd : t.isDynamic = true) : Covered data t o := by
  intro h
  simp [hd] at h

theorem safe_fixedArray (hlen : data.length < 2 ^ 63) (hw : elem.WellFormed) (ht : SafeType data elem) (n : Nat) :
    SafeType data (.fixedArray elem n) := by
  intro o
  rw [decodeAt_fixedArray]
  exact (safe_items hlen (ParamType.wordSize_le_headSize hw) ht n o).imp fun _ => covered_fixedArray

theorem safe_decodeAt (hlen : data.length < 2 ^ 63) (hw : t.WellFormed) : SafeType data t := by
  have hmax := lt_maxSize hlen
  have hwords {k : Nat} (h : k ≤ data.length) : 1 + wordsFor k ≤ maxSize := by
    simp only [wordsFor, wordSize, maxSize] at *
    omega
  induction t using ParamType.codecInduction with
  | scalar t ht =>
    intro o
    rw [guarded_scalar ht, decodeAt_scalar ht]
    unfold payFor
    simp only [bind_assoc, pure_bind]
    refine (safe_lift (ends_word hlen o)).bind fun w h => ?_
    refine (safe_spend 1).bind fun _ _ => safe_pure fun _ => ?_
    rwa [ParamType.headSize_of_isScalar ht]
  | function =>
    intro o b
    exact .fault .functionNotDecodable rfl rfl trivial
  | bytes =>
    intro o
    refine (safe_lift (ends_blob hlen o)).bind fun bs h => ?_
    refine Safe.bind_known (add_of_le (hwords h)) ?_
    exact (safe_spend _).bind fun _ _ => safe_pure (covered_of_dynamic rfl)
  | string =>
    intro o
    refine (safe_lift (ends_text hlen o)).bind fun s h => ?_
    refine Safe.bind_known (add_of_le (hwords h)) ?_
    exact (safe_spend _).bind fun _ _ => safe_pure (covered_of_dynamic rfl)
  | fixedArray elem n ih => exact safe_fixedArray hlen hw.1 (ih hw.1) n
  | array elem ih =>
    have helem : elem.WellFormed := hw
    intro o
    rw [decodeAt_array]
    unfold payFor
    simp only [bind_assoc, pure_bind]
    refine (safe_lift (ends_size hlen o)).bind fun n h => ?_
    refine (safe_spend 1).bind fun _ _ => ?_
    refine Safe.bind_known (add_of_le (by omega)) ?_
    exact (safe_items hlen (ParamType.wordSize_le_headSize helem) (ih helem) n (o + wordSize)).imp fun _ _ =>
      covered_of_dynamic rfl

/-! ## Whole decodes -/

/-- Decoding data that fit into memory ends on a machine as it does without one, so in no trap: no
sum overflows, no slice leaves the data, and no list for elements is longer than the data have
words. It ends with a value or with a fault of reading the data. This holds of values at any
offset, of lists of values, and of arrays of any length. -/
theorem decode_guarded (data : Bytes) (hlen : data.length < 2 ^ 63) :
    (∀ t offset, t.WellFormed →
      Ends data (fun _ => True) (Guarded.decodeValue t data offset) (decodeValue t data offset)) ∧
    (∀ types, (∀ t ∈ types, t.WellFormed) →
      Ends data (fun _ => True) (Guarded.decode types data) (decode types data)) ∧
    ∀ elem offset, elem.WellFormed →
      (∀ count, Ends data (fun _ => True) (Guarded.decodeValue (.fixedArray elem count) data offset)
        (decodeValue (.fixedArray elem count) data offset)) ∧
      Ends data (fun _ => True) (Guarded.decodeValue (.array elem) data offset)
        (decodeValue (.array elem) data offset) := by
  have hvalue (t : ParamType) (offset : Nat) (h : SafeType data t) :
      Ends data (fun _ => True) (Guarded.decodeValue t data offset) (decodeValue t data offset) :=
    ((h offset).imp fun _ _ => trivial).run' _
  refine ⟨fun t offset hw => hvalue t offset (safe_decodeAt hlen hw), fun types hw => ?_,
    fun elem offset hw => ⟨fun count => ?_, ?_⟩⟩
  · exact (safe_fields hlen fun t ht => safe_decodeAt hlen (hw t ht)).run' _
  · exact hvalue _ offset (safe_fixedArray hlen hw (safe_decodeAt hlen hw) count)
  · exact hvalue _ offset (safe_decodeAt (t := .array elem) hlen hw)

theorem decode_guarded_far :
    let t := ParamType.array .string
    let data := bigEndian wordSize 1 ++ bigEndian wordSize maxSize
    data.length < 2 ^ 63 ∧ t.WellFormed ∧
      Guarded.decodeValue t data 0 = .error (.fault (.shortData maxSize 64)) := by
  intro t data
  have hlen : data.length < 2 ^ 63 := by decide +kernel
  have hw : t.WellFormed := trivial
  have hplain : (match decodeValue t data 0 with
      | .error (.shortData needed available) => some (needed, available)
      | _ => none) = some (maxSize, 64) := by decide +kernel
  refine ⟨hlen, hw, ?_⟩
  cases (decode_guarded data hlen).1 t 0 hw with
  | value v guarded plain => simp [plain] at hplain
  | fault e guarded plain =>
    rw [plain] at hplain
    cases e <;> simp at hplain
    obtain ⟨rfl, rfl⟩ := hplain
    exact guarded

end Calldata
