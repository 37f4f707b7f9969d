import Calldata.Proofs.Decoding

/-!
# The budget of a decode

What a decode spends is the weight of the values that it returns, whatever the offsets in the data.
So a decode within a budget is the decode without one, followed by a comparison.
-/

namespace Calldata

/-! ## Weights -/

/-- The words that a value of the type costs: one for a word, for a length and for a count, and one
for each word that bytes fill. -/
def weight : ParamType → Value → Nat
  | .bytes, .bytes bs => 1 + wordsFor bs.length
  | .string, .string s => 1 + wordsFor (Text.utf8 s).length
  | .fixedArray elem _, .array items => (items.map (weight elem)).sum
  | .array elem, .array items => 1 + (items.map (weight elem)).sum
  | _, _ => 1

/-- The words that values of these types cost together. -/
def weights (types : List ParamType) (values : List Value) : Nat :=
  ((types.zip values).map fun (t, v) => weight t v).sum

variable {data : Bytes} {t : ParamType} {ts : List ParamType} {v : Value} {vs : List Value}
  {o base cursor n : Nat}

@[simp] theorem weights_nil : weights [] vs = 0 := rfl

@[simp] theorem weights_cons : weights (t :: ts) (v :: vs) = weight t v + weights ts vs := by
  simp [weights]

theorem weights_replicate : weights (List.replicate vs.length t) vs = (vs.map (weight t)).sum := by
  induction vs with
  | nil => rfl
  | cons v vs ih => rw [List.length_cons, List.replicate_succ, weights_cons, ih, List.map_cons, List.sum_cons]

theorem weight_valueOfWord (ht : t.isScalar = true) (w : Word) : weight t (t.valueOfWord w) = 1 := by
  cases t <;> first | rfl | simp [ParamType.isScalar] at ht

/-! ## What is spent -/

theorem length_of_runs (h : Runs (decodeFields data base cursor ts) (.ok vs) n) :
    vs.length = ts.length := by
  induction ts generalizing cursor vs n with
  | nil =>
    obtain ⟨rfl, -⟩ := runs_nil_iff.mp h
    rfl
  | cons t ts ih =>
    obtain ⟨v, vs', -, j, -, hvs, rfl, -⟩ := runs_cons_iff.mp h
    rw [List.length_cons, List.length_cons, ih hvs]

theorem spent_fields (ht : ∀ t ∈ ts, ∀ p v n, Runs (decodeAt data t p) (.ok v) n → n = weight t v)
    (h : Runs (decodeFields data base cursor ts) (.ok vs) n) : n = weights ts vs := by
  induction ts generalizing cursor vs n with
  | nil => rw [(runs_nil_iff.mp h).2, weights_nil]
  | cons t ts ih =>
    obtain ⟨v, vs', i, j, hfield, hvs, rfl, rfl⟩ := runs_cons_iff.mp h
    obtain ⟨p, -, hv⟩ := runs_field_iff.mp hfield
    rw [weights_cons, ht t List.mem_cons_self p v i hv,
      ih (fun u hu => ht u (List.mem_cons_of_mem t hu)) hvs]

theorem spent_items {elem : ParamType} {k : Nat}
    (ht : ∀ p v n, Runs (decodeAt data elem p) (.ok v) n → n = weight elem v)
    (h : Runs (decodeFields data base cursor (List.replicate k elem)) (.ok vs) n) :
    n = (vs.map (weight elem)).sum := by
  have hlen : vs.length = k := by rw [length_of_runs h, List.length_replicate]
  rw [← weights_replicate, hlen]
  exact spent_fields (ParamType.forall_items ht) h

theorem spent_eq_weight (h : Runs (decodeAt data t o) (.ok v) n) : n = weight t v := by
  induction t using ParamType.codecInduction generalizing o v n with
  | scalar t ht =>
    obtain ⟨w, -, rfl, rfl⟩ := (runs_scalar_iff ht).mp h
    rw [weight_valueOfWord ht]
  | function => exact absurd h not_runs_function
  | bytes =>
    obtain ⟨bs, -, rfl, rfl⟩ := runs_bytes_iff.mp h
    rfl
  | string =>
    obtain ⟨s, -, rfl, rfl⟩ := runs_string_iff.mp h
    rfl
  | fixedArray elem k ih =>
    obtain ⟨-, vs, hvs, rfl⟩ := runs_fixedArray_iff.mp h
    exact spent_items (fun _ _ _ => ih) hvs
  | array elem ih =>
    obtain ⟨k, vs, i, -, -, hvs, rfl, rfl⟩ := runs_array_iff.mp h
    rw [weight, spent_items (fun _ _ _ => ih) hvs]

theorem spent_eq_weights (h : Runs (decodeFields data base cursor ts) (.ok vs) n) : n = weights ts vs :=
  spent_fields (fun _ _ _ _ _ => spent_eq_weight) h

/-! ## Decoding within a budget -/

/-- Within the budget of the data, a run only has to be short enough. -/
theorem run_eq_of_runs {α : Type} {m : Decode α} {result : Except Fault α} (hlen : data.length < 2 ^ 63)
    (h : Runs m result n) :
    m.run' (Budget.ofPayload data) = if n ≤ 2 * wordsFor data.length then result
      else .error (.tooMuchOutput (2 * wordsFor data.length)) := by
  rw [budget_ofPayload hlen]
  exact h.run'_limited

theorem run_ok_iff {α : Type} {m : Decode α} {a : α} (hlen : data.length < 2 ^ 63) (hm : Metered m) :
    m.run' (Budget.ofPayload data) = .ok a ↔ ∃ n, Runs m (.ok a) n ∧ n ≤ 2 * wordsFor data.length := by
  constructor
  · intro h
    obtain ⟨result, n, hr⟩ := hm
    rw [run_eq_of_runs hlen hr] at h
    split at h
    · rename_i hn
      exact ⟨n, h ▸ hr, hn⟩
    · simp at h
  · rintro ⟨n, hr, hn⟩
    rw [run_eq_of_runs hlen hr, if_pos hn]

theorem run_of_le {α : Type} {m : Decode α} {result : Except Fault α} (hlen : data.length < 2 ^ 63)
    (h : Runs m result n) (hn : wordSize * n ≤ data.length) : m.run' (Budget.ofPayload data) = result := by
  rw [run_eq_of_runs hlen h, if_pos]
  simp only [wordsFor, wordSize] at *
  omega

theorem decode_eq_of_runs {result : Except Fault (List Value)} (hlen : data.length < 2 ^ 63)
    (h : Runs (decodeFields data 0 0 ts) result n) :
    decode ts data = if n ≤ 2 * wordsFor data.length then result
      else .error (.tooMuchOutput (2 * wordsFor data.length)) :=
  run_eq_of_runs hlen h

theorem decode_ok_iff (hlen : data.length < 2 ^ 63) :
    decode ts data = .ok vs ↔
      ∃ n, Runs (decodeFields data 0 0 ts) (.ok vs) n ∧ n ≤ 2 * wordsFor data.length :=
  run_ok_iff hlen (metered_fields data 0 0 ts)

theorem decodeUnlimited_ok_iff :
    decodeUnlimited ts data = .ok vs ↔ Runs (decodeFields data 0 0 ts) (.ok vs) (weights ts vs) := by
  rw [decodeUnlimited, decodeTuple_eq]
  constructor
  · intro h
    obtain ⟨result, n, hr⟩ := metered_fields data 0 0 ts
    obtain rfl : result = .ok vs := hr.run'_unlimited.symm.trans h
    exact spent_eq_weights hr ▸ hr
  · intro h
    exact h.run'_unlimited

/-- The budget looks at nothing but the weight of the output. A decode returns what it would return
without a budget when two words for each word of the data pay for it, and otherwise says how many
words it may produce. -/
theorem decode_within_budget (types : List ParamType) (data : Bytes) (hlen : data.length < 2 ^ 63) :
    (∀ values, decode types data = .ok values ↔
      decodeUnlimited types data = .ok values ∧ weights types values ≤ 2 * wordsFor data.length) ∧
    ∀ values, decodeUnlimited types data = .ok values →
      2 * wordsFor data.length < weights types values →
      decode types data = .error (.tooMuchOutput (2 * wordsFor data.length)) := by
  constructor
  · intro values
    constructor
    · intro h
      obtain ⟨result, n, hr⟩ := metered_fields data 0 0 types
      rw [decode_eq_of_runs hlen hr] at h
      split at h
      · rename_i hn
        subst h
        obtain rfl := spent_eq_weights hr
        exact ⟨decodeUnlimited_ok_iff.mpr hr, hn⟩
      · simp at h
    · rintro ⟨h, hw⟩
      rw [decode_eq_of_runs hlen (decodeUnlimited_ok_iff.mp h), if_pos hw]
  · intro values h hw
    rw [decode_eq_of_runs hlen (decodeUnlimited_ok_iff.mp h), if_neg (Nat.not_le.mpr hw)]

/-- A closed reading can be evaluated, although faults cannot be compared. -/
theorem eq_ok_of_toOption {ε α : Type} {x : Except ε α} {a : α} (h : x.toOption = some a) : x = .ok a := by
  cases x <;> simp_all [Except.toOption]

/-- Five byte strings of three words that share their data are too much for nine words. -/
theorem decode_within_budget_shared :
    let types := List.replicate 5 ParamType.bytes
    let data := (List.replicate 5 (bigEndian wordSize 160)).flatten ++ Payload.encodeBlob (zeros 96)
    let values := List.replicate 5 (Value.bytes (zeros 96))
    data.length < 2 ^ 63 ∧ decodeUnlimited types data = .ok values ∧ weights types values = 20 ∧
      decode types data = .error (.tooMuchOutput 18) := by
  intro types data values
  have hlen : data.length < 2 ^ 63 := by decide +kernel
  have hlimit : 2 * wordsFor data.length = 18 := by decide +kernel
  have hfree : decodeUnlimited types data = .ok values := eq_ok_of_toOption (by decide +kernel)
  have hweight : weights types values = 20 := by decide +kernel
  refine ⟨hlen, hfree, hweight, ?_⟩
  rw [← hlimit]
  exact (decode_within_budget types data hlen).2 values hfree (by omega)

end Calldata
