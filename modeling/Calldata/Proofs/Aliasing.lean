import Calldata.Proofs.CutOff

/-!
# Only shared bytes can exhaust a budget

A decode spends no more words than the bytes that it inspects fill. As long as it inspects no byte
twice, these are words of the data, and half of the budget is enough.
-/

namespace Calldata

variable {data other : Bytes} {t elem : ParamType} {ts : List ParamType} {v : Value} {vs : List Value}
  {o base cursor n : Nat}

theorem inspected_inside (h : Runs (decodeFields data base cursor ts) (.ok vs) n) :
    ∀ s ∈ inspectFields data base cursor ts, s.stop ≤ data.length := by
  cases cut_decodeFields (Nat.le_refl data.length) h with
  | whole inside run => exact inside
  | stopped needed spent run short bound paid => omega

theorem spent_le_of_disjoint (h : Runs (decodeFields data base cursor ts) (.ok vs) n)
    (hdisjoint : (inspectFields data base cursor ts).Pairwise Span.Disjoint) :
    n ≤ wordsFor data.length := by
  have hpaid := fields_paid (fun _ _ _ _ _ => runs_paid) h
  have hall := spannedBefore_of_stop_le (inspected_inside h)
  have hroom : spannedBefore data.length _ ≤ data.length := spannedBefore_le hdisjoint
  simp only [wordsFor, wordSize] at *
  omega

/-- A decode that inspects no byte twice returns what it would return without a budget, and it
spends no more than one word for each word of the data. -/
theorem decode_of_disjoint (types : List ParamType) (data : Bytes) (values : List Value)
    (hlen : data.length < 2 ^ 63) (h : decodeUnlimited types data = .ok values)
    (hdisjoint : (inspected types data).Pairwise Span.Disjoint) :
    weights types values ≤ wordsFor data.length ∧
    (decodeTuple types data).run (Budget.ofPayload data) = .ok (values,
      .limited (2 * wordsFor data.length) (2 * wordsFor data.length - weights types values)) ∧
    decode types data = .ok values := by
  have hrun := decodeUnlimited_ok_iff.mp h
  have hspent := spent_le_of_disjoint hrun hdisjoint
  refine ⟨hspent, ?_, ?_⟩
  · rw [decodeTuple_eq, budget_ofPayload hlen, hrun.enough _ _ (by omega)]
    rfl
  · rw [decode_eq_of_runs hlen hrun, if_pos (by omega)]

theorem decode_of_disjoint_unpadded :
    let types := [ParamType.bytes, .string]
    let data := bigEndian wordSize 100 ++ bigEndian wordSize 64 ++
      bigEndian wordSize 2 ++ [104, 105] ++ [255, 255] ++ bigEndian wordSize 3 ++ [1, 2, 3]
    let values := [Value.bytes [1, 2, 3], .string "hi"]
    data.length < 2 ^ 63 ∧ decodeUnlimited types data = .ok values ∧
      (inspected types data).Pairwise Span.Disjoint ∧ decode types data = .ok values := by
  intro types data values
  have hlen : data.length < 2 ^ 63 := by decide +kernel
  have hfree : decodeUnlimited types data = .ok values := eq_ok_of_toOption (by decide +kernel)
  have hdisjoint : (inspected types data).Pairwise Span.Disjoint := by decide +kernel
  exact ⟨hlen, hfree, hdisjoint, (decode_of_disjoint types data values hlen hfree hdisjoint).2.2⟩

end Calldata
