import Calldata.Proofs.Budget
import Mathlib.Data.List.Nodup
import Mathlib.Data.List.Perm.Subperm

/-!
# The spans that a decode inspects

`inspectAt` lists the runs of bytes that the decoder slices out of the data: each word of a scalar,
an offset, a count or a length, and the bytes of each blob without their padding. What is spent is
paid for by these bytes, and the padding by the offset in front of it.
-/

namespace Calldata

/-! ## Spans -/

/-- A run of bytes of a payload. -/
structure Span where
  start : Nat
  length : Nat
  deriving DecidableEq, Repr

namespace Span

def stop (s : Span) : Nat := s.start + s.length

/-- The places of its bytes. -/
def places (s : Span) : List Nat := List.range' s.start s.length

/-- No byte belongs to both. -/
def Disjoint (s u : Span) : Prop := ∀ i ∈ s.places, i ∉ u.places

instance : DecidableRel Disjoint := fun s u => inferInstanceAs (Decidable (∀ i ∈ s.places, i ∉ u.places))

/-- How many of its bytes stand in front of `k`. -/
def before (k : Nat) (s : Span) : Nat := min s.length (k - s.start)

theorem disjoint_of_le {s u : Span} (h : s.stop ≤ u.start ∨ u.stop ≤ s.start) : s.Disjoint u := by
  intro i hs hu
  simp only [places, List.mem_range'_1] at hs hu
  simp only [stop] at h
  omega

theorem countP_places (k : Nat) (s : Span) : s.places.countP (· < k) = s.before k := by
  obtain ⟨start, length⟩ := s
  simp only [places, before]
  induction length generalizing start with
  | zero => simp
  | succ length ih =>
    rw [List.range'_succ, List.countP_cons, ih]
    simp only [decide_eq_true_eq]
    split <;> omega

end Span

/-- The number of bytes in the spans. -/
def spanned (spans : List Span) : Nat := (spans.map (·.length)).sum

/-- The number of their bytes that stand in front of `k`. -/
def spannedBefore (k : Nat) (spans : List Span) : Nat := (spans.map (·.before k)).sum

variable {k : Nat} {s : Span} {spans rest : List Span}

@[simp] theorem spanned_nil : spanned [] = 0 := rfl

@[simp] theorem spanned_cons : spanned (s :: spans) = s.length + spanned spans := by simp [spanned]

@[simp] theorem spanned_append : spanned (spans ++ rest) = spanned spans + spanned rest := by simp [spanned]

@[simp] theorem spannedBefore_append :
    spannedBefore k (spans ++ rest) = spannedBefore k spans + spannedBefore k rest := by
  simp [spannedBefore]

theorem spannedBefore_of_stop_le (h : ∀ s ∈ spans, s.stop ≤ k) : spannedBefore k spans = spanned spans := by
  induction spans with
  | nil => rfl
  | cons s spans ih =>
    obtain ⟨hs, hrest⟩ := List.forall_mem_cons.mp h
    have hbefore : s.before k = s.length := by simp only [Span.stop, Span.before] at *; omega
    have := ih hrest
    simp only [spannedBefore, spanned, List.map_cons, List.sum_cons] at *
    omega

theorem spannedBefore_eq_countP : spannedBefore k spans = (spans.flatMap Span.places).countP (· < k) := by
  induction spans with
  | nil => rfl
  | cons s spans ih =>
    rw [List.flatMap_cons, List.countP_append, Span.countP_places, ← ih]
    simp [spannedBefore]

/-- Disjoint spans have no more bytes in front of `k` than there are. -/
theorem spannedBefore_le (h : spans.Pairwise Span.Disjoint) : spannedBefore k spans ≤ k := by
  have hnodup : (spans.flatMap Span.places).Nodup := by
    rw [List.nodup_flatMap]
    exact ⟨fun s _ => List.nodup_range', h⟩
  have hsub : (spans.flatMap Span.places).filter (· < k) ⊆ List.range k := by
    intro i hi
    simpa using (List.mem_filter.mp hi).2
  have hle := (List.subperm_of_subset (hnodup.filter _) hsub).length_le
  rwa [← List.countP_eq_length_filter, ← spannedBefore_eq_countP, List.length_range] at hle

/-! ## What is inspected -/

/-- The size that the word at the offset names, and zero when it names none. -/
def sizeAt (data : Bytes) (offset : Nat) : Nat :=
  match Payload.size data offset with
  | .ok n => n
  | .error _ => 0

/-- The spans of a tuple's fields, from the slot at `cursor` on. -/
def inspectFrom (data : Bytes) (base : Nat) :
    (cursor : Nat) → List (Slot × (Nat → List Span)) → List Span
  | _, [] => []
  | cursor, (slot, inspect) :: rest =>
    (if slot.dynamic then ⟨cursor, wordSize⟩ :: inspect (base + sizeAt data cursor) else inspect cursor) ++
      inspectFrom data base (cursor + slot.size) rest

/-- The spans that decoding a value of the type at the offset inspects, in their order. -/
def inspectAt (data : Bytes) : ParamType → (offset : Nat) → List Span
  | .bytes, o | .string, o => [⟨o, wordSize⟩, ⟨o + wordSize, sizeAt data o⟩]
  | .function, _ => []
  | .fixedArray elem n, o => inspectFrom data o o (List.replicate n (elem.slot, inspectAt data elem))
  | .array elem, o =>
    ⟨o, wordSize⟩ :: inspectFrom data (o + wordSize) (o + wordSize)
      (List.replicate (sizeAt data o) (elem.slot, inspectAt data elem))
  | _, o => [⟨o, wordSize⟩]

/-- The spans that decoding the fields of a tuple inspects. -/
def inspectFields (data : Bytes) (base cursor : Nat) (types : List ParamType) : List Span :=
  inspectFrom data base cursor (types.map fun t => (t.slot, inspectAt data t))

/-- The spans that decoding values of these types inspects. -/
def inspected (types : List ParamType) (data : Bytes) : List Span := inspectFields data 0 0 types

/-- The spans of one field: a dynamic one has the offset in its slot as well. -/
def inspectField (data : Bytes) (base cursor : Nat) (t : ParamType) : List Span :=
  if t.isDynamic then ⟨cursor, wordSize⟩ :: inspectAt data t (base + sizeAt data cursor)
  else inspectAt data t cursor

variable {data : Bytes} {t elem : ParamType} {ts : List ParamType} {v : Value} {vs : List Value}
  {o base cursor n : Nat}

theorem inspectFields_cons :
    inspectFields data base cursor (t :: ts) =
      inspectField data base cursor t ++ inspectFields data base (cursor + t.headSize) ts := rfl

theorem inspectAt_scalar (ht : t.isScalar = true) : inspectAt data t o = [⟨o, wordSize⟩] := by
  cases t <;> first | rfl | simp [ParamType.isScalar] at ht

theorem inspectAt_fixedArray :
    inspectAt data (.fixedArray elem n) o = inspectFields data o o (List.replicate n elem) := by
  rw [inspectAt, inspectFields, List.map_replicate]

theorem inspectAt_array :
    inspectAt data (.array elem) o = ⟨o, wordSize⟩ ::
      inspectFields data (o + wordSize) (o + wordSize) (List.replicate (sizeAt data o) elem) := by
  rw [inspectAt, inspectFields, List.map_replicate]

theorem sizeAt_of_ok (h : Payload.size data o = .ok n) : sizeAt data o = n := by
  simp only [sizeAt, h]

theorem sizeAt_of_blob {bs : Bytes} (h : Payload.blob data o = .ok bs) : sizeAt data o = bs.length := by
  obtain ⟨hmax, hb⟩ := Payload.blob_ok_iff.mp h
  exact sizeAt_of_ok (Payload.size_ok_iff.mpr ⟨by omega, by omega, (holds_append.mp hb).1⟩)

/-! ## Payment -/

theorem place_dynamic_iff {p : Nat} (ht : t.isDynamic = true) :
    Tuple.place data base cursor t.slot = .ok p ↔
      ∃ k, Payload.size data cursor = .ok k ∧ base + k ≤ maxSize ∧ p = base + k := by
  simp only [Tuple.place, ParamType.slot, ht, if_true, Tuple.locate]
  cases hk : Payload.size data cursor with
  | error e => simp
  | ok k =>
    simp only [Except.ok.injEq, exists_eq_left']
    split
    · simp; omega
    · simp only [Except.ok.injEq]
      omega

theorem place_static_iff {p : Nat} (ht : t.isDynamic = false) :
    Tuple.place data base cursor t.slot = .ok p ↔ p = cursor := by
  simp [Tuple.place, ParamType.slot, ht, eq_comm]

theorem field_paid (ht : ∀ p v n, Runs (decodeAt data t p) (.ok v) n →
      wordSize * n ≤ t.offsetSize + spanned (inspectAt data t p))
    (h : Runs (decodeField data base cursor t) (.ok v) n) :
    wordSize * n ≤ spanned (inspectField data base cursor t) := by
  obtain ⟨p, hp, hv⟩ := runs_field_iff.mp h
  have hvalue := ht p v n hv
  rw [inspectField]
  cases hd : t.isDynamic with
  | true =>
    obtain ⟨k, hk, -, rfl⟩ := (place_dynamic_iff hd).mp hp
    simpa [ParamType.offsetSize, hd, sizeAt_of_ok hk] using hvalue
  | false =>
    obtain rfl := (place_static_iff hd).mp hp
    simpa [ParamType.offsetSize, hd] using hvalue

theorem fields_paid (ht : ∀ t ∈ ts, ∀ p v n, Runs (decodeAt data t p) (.ok v) n →
      wordSize * n ≤ t.offsetSize + spanned (inspectAt data t p))
    (h : Runs (decodeFields data base cursor ts) (.ok vs) n) :
    wordSize * n ≤ spanned (inspectFields data base cursor ts) := by
  induction ts generalizing cursor vs n with
  | nil => simp [(runs_nil_iff.mp h).2]
  | cons t ts ih =>
    obtain ⟨v, vs', i, j, hfield, hvs, -, rfl⟩ := runs_cons_iff.mp h
    have hhead := field_paid (ht t List.mem_cons_self) hfield
    have htail := ih (fun u hu => ht u (List.mem_cons_of_mem t hu)) hvs
    rw [inspectFields_cons, spanned_append, Nat.mul_add]
    omega

theorem blob_paid (m : Nat) :
    wordSize * blobWords m ≤ wordSize + spanned [⟨o, wordSize⟩, ⟨o + wordSize, m⟩] := by
  simp only [spanned_cons, spanned_nil, blobWords, wordsFor, wordSize]
  omega

/-- The bytes that a decode inspects pay for what it spends, with the offset in front of it. -/
theorem runs_paid (h : Runs (decodeAt data t o) (.ok v) n) :
    wordSize * n ≤ t.offsetSize + spanned (inspectAt data t o) := by
  induction t using ParamType.codecInduction generalizing o v n with
  | scalar t ht =>
    obtain ⟨w, -, -, rfl⟩ := (runs_scalar_iff ht).mp h
    simp [inspectAt_scalar ht]
  | function => exact absurd h not_runs_function
  | bytes =>
    obtain ⟨bs, hbs, -, rfl⟩ := runs_bytes_iff.mp h
    rw [inspectAt, sizeAt_of_blob hbs]
    exact blob_paid bs.length
  | string =>
    obtain ⟨s, hs, -, rfl⟩ := runs_string_iff.mp h
    rw [inspectAt, sizeAt_of_blob (Payload.text_ok_iff.mp hs)]
    exact blob_paid (Text.utf8 s).length
  | fixedArray elem k ih =>
    obtain ⟨-, vs, hvs, -⟩ := runs_fixedArray_iff.mp h
    have := fields_paid (ParamType.forall_items fun _ _ _ => ih) hvs
    rw [inspectAt_fixedArray]
    omega
  | array elem ih =>
    obtain ⟨k, vs, i, hk, -, hvs, -, rfl⟩ := runs_array_iff.mp h
    have := fields_paid (ParamType.forall_items fun _ _ _ => ih) hvs
    rw [inspectAt_array, sizeAt_of_ok hk, spanned_cons, Nat.mul_add]
    simp only [Nat.mul_one]
    omega

end Calldata
