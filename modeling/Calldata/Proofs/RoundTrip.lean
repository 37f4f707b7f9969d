import Calldata.Proofs.Standing

/-!
# What is encoded can be decoded

Values in the form of their types survive being encoded and decoded, whatever bytes stand around
their encoding. The budget never runs out: an encoding has a word for each word of its values.
-/

namespace Calldata

variable {t elem : ParamType} {ts : List ParamType} {v : Value} {vs items : List Value}

theorem weights_le (ht : ∀ t ∈ ts, ∀ v, wordSize * weight t v ≤ encodedSize t v) :
    wordSize * weights ts vs ≤ encodedSizes ts vs := by
  induction ts generalizing vs with
  | nil => simp
  | cons t ts ih =>
    cases vs with
    | nil => simp [weights]
    | cons v vs =>
      have hfirst := ht t List.mem_cons_self v
      have hrest : wordSize * weights ts vs ≤ _ := ih fun u hu => ht u (List.mem_cons_of_mem t hu)
      rw [weights_cons, encodedSizes_cons, Nat.mul_add]
      omega

theorem weight_le (t : ParamType) (v : Value) : wordSize * weight t v ≤ encodedSize t v := by
  have hitems (elem : ParamType) (ih : ∀ v, wordSize * weight elem v ≤ encodedSize elem v)
      (items : List Value) : wordSize * (items.map (weight elem)).sum ≤
        (items.map fun v => elem.offsetSize + encodedSize elem v).sum := by
    rw [← weights_replicate, ← encodedSizes_replicate]
    exact weights_le (ParamType.forall_items ih)
  induction t using ParamType.codecInduction generalizing v with
  | scalar t ht => cases t <;> cases v <;> first | exact Nat.le_refl _ | simp [ParamType.isScalar] at ht
  | function => cases v <;> exact Nat.le_refl _
  | bytes | string => cases v <;> exact Nat.le_refl _
  | fixedArray elem n ih =>
    cases v with
    | array items => exact hitems elem ih items
    | _ => exact Nat.le_refl _
  | array elem ih =>
    cases v with
    | array items =>
      have := hitems elem ih items
      rw [weight, encodedSize, Nat.mul_add]
      omega
    | _ => exact Nat.le_refl _

/-- A value in the form of its type can be encoded, and its encoding is decoded to it in front of
any bytes and behind any. The same holds of lists of values and what follows their encoding. -/
theorem decode_encode :
    (∀ t v, t.WellFormed → t.FunctionFree → Typed t v → encodedSize t v < 2 ^ 63 →
      ∃ b, encodeValue t v = .ok b ∧ b.length = encodedSize t v ∧
        ∀ pre post, (pre ++ b ++ post).length < 2 ^ 63 →
          decodeValue t (pre ++ b ++ post) pre.length = .ok v) ∧
    ∀ types values, (∀ t ∈ types, t.WellFormed ∧ t.FunctionFree) → List.Forall₂ Typed types values →
      encodedSizes types values < 2 ^ 63 →
      ∃ b, encode types values = .ok b ∧ b.length = encodedSizes types values ∧
        ∀ post, (b ++ post).length < 2 ^ 63 → decode types (b ++ post) = .ok values := by
  have hmax {n : Nat} (h : n < 2 ^ 63) : n ≤ maxSize := by simp only [maxSize]; omega
  constructor
  · intro t v hw hf hv hsize
    obtain ⟨b, hb⟩ := encodes hw hv (hmax hsize)
    have hlen := length_of_typed hv hb
    refine ⟨b, hb, hlen, fun pre post hdata => ?_⟩
    obtain ⟨n, hn⟩ := runs_of_holds (hmax hdata) hw hf hv hb (holds_framed pre b post)
    obtain rfl := spent_eq_weight hn
    have hcost := weight_le t v
    have hroom : b.length ≤ (pre ++ b ++ post).length := by
      rw [List.length_append, List.length_append]
      omega
    exact run_of_le hdata hn (by omega)
  · intro types values htypes hvalues hsize
    obtain ⟨b, hb⟩ := encodes_fields (fun t ht v => encodes (htypes t ht).1) hvalues (hmax hsize)
    obtain ⟨-, ps, hps, rfl⟩ := encode_ok_iff.mp hb
    have hlen := length_layOut hvalues hps
    refine ⟨Tuple.layOut ps, hb, hlen, fun post hdata => ?_⟩
    have hlaid := laid_layOut hps (holds_framed [] (Tuple.layOut ps) post)
    obtain ⟨n, hn⟩ := runs_fields (hmax hdata)
      (fun t ht _ _ _ hv he h => runs_of_holds (hmax hdata) (htypes t ht).1 (htypes t ht).2 hv he h)
      hvalues hps hlaid
    obtain rfl := spent_eq_weights hn
    have hcost : wordSize * weights types values ≤ _ := weights_le fun t _ => weight_le t
    exact run_of_le hdata hn (by rw [List.length_append]; omega)

theorem decode_encode_nested :
    let t := ParamType.fixedArray (.array (.int 16)) 2
    let v := Value.array [.array [.int (.ofInt (-1)), .int (.ofInt 300)], .array []]
    let types := [t, .string]
    let values := [v, .string "hi"]
    (t.WellFormed ∧ t.FunctionFree ∧ Typed t v ∧ encodedSize t v < 2 ^ 63) ∧
      (∃ b, encodeValue t v = .ok b ∧ b.length = 192 ∧ decodeValue t ([7] ++ b ++ [8, 9]) 1 = .ok v) ∧
      ((∀ t ∈ types, t.WellFormed ∧ t.FunctionFree) ∧ List.Forall₂ Typed types values ∧
        encodedSizes types values < 2 ^ 63) ∧
      ∃ b, encode types values = .ok b ∧ b.length = 320 ∧ decode types (b ++ [9]) = .ok values := by
  intro t v types values
  have hw : t.WellFormed := by simp [t, ParamType.WellFormed, ParamType.IsWidth, ParamType.IsArrayLength, maxSize]
  have hf : t.FunctionFree := by simp [t, ParamType.FunctionFree]
  have hv : Typed t v := by
    simp only [t, v, Typed, List.forall_mem_cons, List.not_mem_nil, false_implies, implies_true, and_true]
    decide
  have hsize : encodedSize t v = 192 := by decide +kernel
  have htypes : ∀ t ∈ types, t.WellFormed ∧ t.FunctionFree := by
    simp only [types, List.forall_mem_cons, List.not_mem_nil, false_implies, implies_true, and_true]
    exact ⟨⟨hw, hf⟩, trivial, trivial⟩
  have hvalues : List.Forall₂ Typed types values := .cons hv (.cons trivial .nil)
  have hsizes : encodedSizes types values = 320 := by decide +kernel
  obtain ⟨b, hb, hlen, hdec⟩ := decode_encode.1 t v hw hf hv (by rw [hsize]; decide)
  obtain ⟨bs, hbs, hlens, hdecs⟩ := decode_encode.2 types values htypes hvalues (by rw [hsizes]; decide)
  refine ⟨⟨hw, hf, hv, by rw [hsize]; decide⟩, ⟨b, hb, hlen.trans hsize, ?_⟩,
    ⟨htypes, hvalues, by rw [hsizes]; decide⟩, bs, hbs, hlens.trans hsizes, ?_⟩
  · exact hdec [7] [8, 9] (by simp [hlen, hsize])
  · exact hdecs [9] (by simp [hlens, hsizes])

end Calldata
