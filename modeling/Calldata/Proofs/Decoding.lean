import Calldata.Codec
import Calldata.Proofs.Forms
import Calldata.Proofs.Meter
import Calldata.Proofs.Reading

/-!
# Runs of the decoder

One statement for each form of type: when a decode of it ends well, what it reads and what it
spends. Arrays and argument lists share the fields of a tuple, so the decoder is seen through
`decodeFields`, which takes a list of types.
-/

namespace Calldata

variable {data : Bytes} {t elem : ParamType} {ts : List ParamType} {v : Value} {vs : List Value}
  {o p base cursor n : Nat}

/-! ## The decoder over lists of types -/

/-- Where the value of a slot at `cursor` stands. -/
def Tuple.place (data : Bytes) (base cursor : Nat) (slot : Slot) : Except Fault Nat :=
  if slot.dynamic then locate data base cursor else .ok cursor

/-- Decodes the field whose slot is at `cursor` in the tuple at `base`. -/
def decodeField (data : Bytes) (base cursor : Nat) (t : ParamType) : Decode Value := do
  let p ← Tuple.place data base cursor t.slot
  decodeAt data t p

/-- Decodes the fields of the tuple at `base` from the slot at `cursor` on. -/
def decodeFields (data : Bytes) (base cursor : Nat) (types : List ParamType) : Decode (List Value) :=
  Tuple.decodeFrom data base cursor (types.map fun t => (t.slot, decodeAt data t))

theorem decodeTuple_eq (types : List ParamType) (data : Bytes) :
    decodeTuple types data = decodeFields data 0 0 types := rfl

theorem decodeFields_cons :
    decodeFields data base cursor (t :: ts) = (do
      let v ← decodeField data base cursor t
      let vs ← decodeFields data base (cursor + t.headSize) ts
      pure (v :: vs)) := by
  simp only [decodeFields, List.map_cons, Tuple.decodeFrom, decodeField, Tuple.place, bind_assoc]
  cases t.slot.dynamic <;> rfl

theorem decodeAt_scalar (h : t.isScalar = true) :
    decodeAt data t o = (do
      let w ← payFor (Payload.word data o) fun _ => 1
      pure (t.valueOfWord w)) := by
  cases t <;> first | rfl | simp [ParamType.isScalar] at h

theorem decodeAt_bytes :
    decodeAt data .bytes o = (do
      let bs ← payFor (Payload.blob data o) fun bs => blobWords bs.length
      pure (.bytes bs)) := by
  simp only [payFor, bind_assoc, pure_bind]
  rfl

theorem decodeAt_string :
    decodeAt data .string o = (do
      let s ← payFor (Payload.text data o) fun s => blobWords (Text.utf8 s).length
      pure (.string s)) := by
  simp only [payFor, bind_assoc, pure_bind]
  rfl

theorem decodeAt_fixedArray :
    decodeAt data (.fixedArray elem n) o = (do
      liftM (Payload.checkRoom elem.headSize n data o)
      let vs ← decodeFields data o o (List.replicate n elem)
      pure (.array vs)) := by
  rw [decodeAt, decodeFields, List.map_replicate]
  rfl

theorem decodeAt_array :
    decodeAt data (.array elem) o = (do
      let n ← payFor (Payload.size data o) fun _ => 1
      liftM (Payload.checkRoom elem.headSize n data (o + wordSize))
      let vs ← decodeFields data (o + wordSize) (o + wordSize) (List.replicate n elem)
      pure (.array vs)) := by
  simp only [payFor, bind_assoc, pure_bind, decodeFields, List.map_replicate]
  rfl

/-! ## The decoder is metered -/

theorem metered_decodeFields (h : ∀ t ∈ ts, ∀ p, Metered (decodeAt data t p)) :
    Metered (decodeFields data base cursor ts) := by
  induction ts generalizing cursor with
  | nil => exact metered_pure []
  | cons t ts ih =>
    rw [decodeFields_cons]
    have hfield : Metered (decodeField data base cursor t) :=
      (metered_lift _).bind (h t List.mem_cons_self)
    have hrest (cursor : Nat) : Metered (decodeFields data base cursor ts) :=
      ih fun u hu => h u (List.mem_cons_of_mem t hu)
    exact hfield.bind fun v => (hrest _).bind fun vs => metered_pure (v :: vs)

theorem metered_decodeAt (data : Bytes) (t : ParamType) (o : Nat) : Metered (decodeAt data t o) := by
  have hitems (elem : ParamType) (ih : ∀ p, Metered (decodeAt data elem p)) (o n : Nat) : Metered (do
      liftM (Payload.checkRoom elem.headSize n data o)
      let vs ← decodeFields data o o (List.replicate n elem)
      pure (Value.array vs)) :=
    (metered_lift _).bind fun _ =>
      (metered_decodeFields (ParamType.forall_items ih)).bind fun _ => metered_pure _
  induction t using ParamType.codecInduction generalizing o with
  | scalar t ht =>
    rw [decodeAt_scalar ht]
    exact (metered_payFor _ _).bind fun _ => metered_pure _
  | function => exact metered_lift (.error .functionNotDecodable)
  | bytes =>
    rw [decodeAt_bytes]
    exact (metered_payFor _ _).bind fun _ => metered_pure _
  | string =>
    rw [decodeAt_string]
    exact (metered_payFor _ _).bind fun _ => metered_pure _
  | fixedArray elem n ih =>
    rw [decodeAt_fixedArray]
    exact hitems elem ih o n
  | array elem ih =>
    rw [decodeAt_array]
    exact (metered_payFor _ _).bind fun n => hitems elem ih (o + wordSize) n

theorem metered_decodeField (data : Bytes) (base cursor : Nat) (t : ParamType) :
    Metered (decodeField data base cursor t) :=
  (metered_lift _).bind (metered_decodeAt data t)

theorem metered_fields (data : Bytes) (base cursor : Nat) (ts : List ParamType) :
    Metered (decodeFields data base cursor ts) :=
  metered_decodeFields fun t _ => metered_decodeAt data t

/-! ## What a decode that ends well reads and spends -/

theorem not_runs_function : ¬ Runs (decodeAt data .function o) (.ok v) n := by
  intro h
  have hfault : Runs (decodeAt data .function o) (.error .functionNotDecodable) 0 :=
    runs_lift (.error .functionNotDecodable)
  exact absurd (h.result_unique hfault) (by simp)

theorem runs_wrapped_iff {α : Type} {x : Except Fault α} {cost : α → Nat} {wrap : α → Value} :
    Runs (payFor x cost >>= fun a => pure (wrap a)) (.ok v) n ↔
      ∃ a, x = .ok a ∧ v = wrap a ∧ n = cost a := by
  rw [runs_map_iff (metered_payFor x cost)]
  simp only [runs_payFor_iff]
  constructor
  · rintro ⟨a, ⟨ha, hn⟩, hv⟩
    exact ⟨a, ha, hv, hn⟩
  · rintro ⟨a, ha, hv, hn⟩
    exact ⟨a, ⟨ha, hn⟩, hv⟩

theorem runs_scalar_iff (ht : t.isScalar = true) :
    Runs (decodeAt data t o) (.ok v) n ↔ ∃ w, Payload.word data o = .ok w ∧ v = t.valueOfWord w ∧ n = 1 := by
  rw [decodeAt_scalar ht]
  exact runs_wrapped_iff

theorem runs_bytes_iff :
    Runs (decodeAt data .bytes o) (.ok v) n ↔
      ∃ bs, Payload.blob data o = .ok bs ∧ v = .bytes bs ∧ n = blobWords bs.length := by
  rw [decodeAt_bytes]
  exact runs_wrapped_iff

theorem runs_string_iff :
    Runs (decodeAt data .string o) (.ok v) n ↔
      ∃ s, Payload.text data o = .ok s ∧ v = .string s ∧ n = blobWords (Text.utf8 s).length := by
  rw [decodeAt_string]
  exact runs_wrapped_iff

theorem runs_field_iff :
    Runs (decodeField data base cursor t) (.ok v) n ↔
      ∃ p, Tuple.place data base cursor t.slot = .ok p ∧ Runs (decodeAt data t p) (.ok v) n :=
  runs_lift_bind_iff (metered_decodeAt data t)

theorem runs_nil_iff : Runs (decodeFields data base cursor []) (.ok vs) n ↔ vs = [] ∧ n = 0 :=
  runs_pure_iff

theorem runs_cons_iff :
    Runs (decodeFields data base cursor (t :: ts)) (.ok vs) n ↔
      ∃ v vs' i j, Runs (decodeField data base cursor t) (.ok v) i ∧
        Runs (decodeFields data base (cursor + t.headSize) ts) (.ok vs') j ∧
        vs = v :: vs' ∧ n = i + j := by
  rw [decodeFields_cons, runs_bind_iff (metered_decodeField data base cursor t) fun v =>
    (metered_fields _ _ _ _).bind fun vs => metered_pure (v :: vs)]
  simp only [runs_map_iff (metered_fields _ _ _ _)]
  constructor
  · rintro ⟨v, i, j, hv, ⟨vs', hvs, rfl⟩, hn⟩
    exact ⟨v, vs', i, j, hv, hvs, rfl, hn⟩
  · rintro ⟨v, vs', i, j, hv, hvs, rfl, hn⟩
    exact ⟨v, i, j, hv, ⟨vs', hvs, rfl⟩, hn⟩

theorem runs_items_iff {k : Nat} :
    Runs (do
      liftM (Payload.checkRoom elem.headSize k data o)
      let vs ← decodeFields data o o (List.replicate k elem)
      pure (Value.array vs)) (.ok v) n ↔
      Payload.checkRoom elem.headSize k data o = .ok () ∧
        ∃ vs, Runs (decodeFields data o o (List.replicate k elem)) (.ok vs) n ∧ v = .array vs := by
  rw [runs_lift_bind_iff fun _ => (metered_fields _ _ _ _).bind fun vs => metered_pure _]
  simp only [runs_map_iff (metered_fields _ _ _ _)]
  constructor
  · rintro ⟨⟨⟩, hroom, hvs⟩
    exact ⟨hroom, hvs⟩
  · rintro ⟨hroom, hvs⟩
    exact ⟨(), hroom, hvs⟩

theorem runs_fixedArray_iff {k : Nat} :
    Runs (decodeAt data (.fixedArray elem k) o) (.ok v) n ↔
      Payload.checkRoom elem.headSize k data o = .ok () ∧
        ∃ vs, Runs (decodeFields data o o (List.replicate k elem)) (.ok vs) n ∧ v = .array vs := by
  rw [decodeAt_fixedArray]
  exact runs_items_iff

theorem runs_array_iff :
    Runs (decodeAt data (.array elem) o) (.ok v) n ↔
      ∃ k vs i, Payload.size data o = .ok k ∧
        Payload.checkRoom elem.headSize k data (o + wordSize) = .ok () ∧
        Runs (decodeFields data (o + wordSize) (o + wordSize) (List.replicate k elem)) (.ok vs) i ∧
        v = .array vs ∧ n = 1 + i := by
  rw [decodeAt_array, runs_bind_iff (metered_payFor _ _) fun k => (metered_lift _).bind fun _ =>
    (metered_fields _ _ _ _).bind fun vs => metered_pure _]
  simp only [runs_payFor_iff, runs_items_iff]
  constructor
  · rintro ⟨k, i, j, ⟨hk, rfl⟩, ⟨hroom, vs, hvs, rfl⟩, rfl⟩
    exact ⟨k, vs, j, hk, hroom, hvs, rfl, rfl⟩
  · rintro ⟨k, vs, i, hk, hroom, hvs, rfl, rfl⟩
    exact ⟨k, 1, i, ⟨hk, rfl⟩, ⟨hroom, vs, hvs, rfl⟩, rfl⟩

end Calldata
