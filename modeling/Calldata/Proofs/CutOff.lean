import Calldata.Proofs.Spans

/-!
# Decoding data that were cut off

A decode that ends well on all of the data either ends in the same way on their first `k` bytes, or
it asks for bytes behind the cut. In the second case it has spent no more than the inspected bytes
in front of the cut pay for.
-/

namespace Calldata

variable {α β : Type} {m : Decode α} {f : α → Decode β} {a : α} {b : β} {i j k total : Nat}
  {spans rest : List Span}

/-- How a run ends when the data end at `k` instead of `total`. -/
inductive CutRun (k total : Nat) (spans : List Span) (m : Decode α) (a : α) (n : Nat) : Prop
  | whole (inside : ∀ s ∈ spans, s.stop ≤ k) (run : Runs m (.ok a) n)
  | stopped (needed spent : Nat) (run : Runs m (.error (.shortData needed k)) spent)
      (short : k < needed) (bound : needed ≤ total) (paid : wordSize * spent ≤ spannedBefore k spans)

theorem CutRun.of_runs (h : Runs m (.ok a) i) : CutRun k total [] m a i := .whole (by simp) h

theorem CutRun.lift {x : Except Fault α}
    (h : ((∀ s ∈ spans, s.stop ≤ k) ∧ x = .ok a) ∨ Payload.Stops k total x) :
    CutRun k total spans (liftM x : Decode α) a 0 := by
  rcases h with ⟨inside, rfl⟩ | ⟨needed, rfl, short, bound⟩
  · exact .whole inside (runs_lift _)
  · exact .stopped needed 0 (runs_lift _) short bound (by simp)

theorem CutRun.payFor {x : Except Fault α} (cost : α → Nat)
    (h : ((∀ s ∈ spans, s.stop ≤ k) ∧ x = .ok a) ∨ Payload.Stops k total x) :
    CutRun k total spans (payFor x cost) a (cost a) := by
  rcases h with ⟨inside, rfl⟩ | ⟨needed, rfl, short, bound⟩
  · exact .whole inside (runs_payFor_ok cost rfl)
  · exact .stopped needed 0 (runs_payFor_error cost rfl) short bound (by simp)

theorem CutRun.bind (hm : CutRun k total spans m a i) (hpaid : wordSize * i ≤ spanned spans)
    (hf : CutRun k total rest (f a) b j) : CutRun k total (spans ++ rest) (m >>= f) b (i + j) := by
  cases hm with
  | stopped needed spent run short bound paid =>
    refine .stopped needed spent run.bind_error short bound ?_
    rw [spannedBefore_append]
    omega
  | whole inside run =>
    cases hf with
    | whole inside' run' =>
      refine .whole ?_ (run.bind run')
      rintro s hs
      rcases List.mem_append.mp hs with hs | hs
      · exact inside s hs
      · exact inside' s hs
    | stopped needed spent run' short bound paid =>
      refine .stopped needed (i + spent) (run.bind run') short bound ?_
      rw [spannedBefore_append, spannedBefore_of_stop_le inside, Nat.mul_add]
      omega

theorem CutRun.map (g : α → β) (hm : CutRun k total spans m a i) :
    CutRun k total spans (m >>= fun a => pure (g a)) (g a) i := by
  cases hm with
  | whole inside run => exact .whole inside ((runs_map_iff ⟨_, _, run⟩).mpr ⟨a, run, rfl⟩)
  | stopped needed spent run short bound paid =>
    exact .stopped needed spent run.bind_error short bound paid

variable {data : Bytes} {t elem : ParamType} {ts : List ParamType} {v : Value} {vs : List Value}
  {o base cursor n : Nat}

theorem cut_blob {wrap : α → Value} {cost : α → Nat} {x : Except Fault α} {len : Nat}
    (h : (o + wordSize + len ≤ k ∧ x = .ok a) ∨ Payload.Stops k total x) :
    CutRun k total [⟨o, wordSize⟩, ⟨o + wordSize, len⟩] (payFor x cost >>= fun a => pure (wrap a))
      (wrap a) (cost a) := by
  refine (CutRun.payFor cost (h.imp_left ?_)).map wrap
  rintro ⟨hend, hx⟩
  refine ⟨?_, hx⟩
  simp only [List.forall_mem_cons, Span.stop, List.not_mem_nil, false_implies, implies_true, and_true]
  omega

theorem cut_field (hk : k ≤ data.length)
    (ht : ∀ p v n, Runs (decodeAt data t p) (.ok v) n →
      CutRun k data.length (inspectAt data t p) (decodeAt (data.take k) t p) v n)
    (h : Runs (decodeField data base cursor t) (.ok v) n) :
    CutRun k data.length (inspectField data base cursor t) (decodeField (data.take k) base cursor t) v n := by
  obtain ⟨p, hp, hv⟩ := runs_field_iff.mp h
  rw [inspectField]
  cases hd : t.isDynamic with
  | false =>
    obtain rfl := (place_static_iff hd).mp hp
    have hplace : Tuple.place (data.take k) base p t.slot = .ok p := (place_static_iff hd).mpr rfl
    have hrun : CutRun k data.length [] (liftM (Tuple.place (data.take k) base p t.slot) : Decode Nat) p 0 :=
      .lift (.inl ⟨by simp, hplace⟩)
    simpa [decodeField] using hrun.bind (by simp) (ht p v n hv)
  | true =>
    obtain ⟨off, hoff, hmax, rfl⟩ := (place_dynamic_iff hd).mp hp
    have hrun : CutRun k data.length [⟨cursor, wordSize⟩]
        (liftM (Tuple.place (data.take k) base cursor t.slot) : Decode Nat) (base + off) 0 := by
      refine .lift ?_
      rcases Payload.size_take hk hoff with ⟨hend, hs⟩ | ⟨needed, hs, hneeded⟩
      · exact .inl ⟨by simpa [Span.stop] using hend, (place_dynamic_iff hd).mpr ⟨off, hs, hmax, rfl⟩⟩
      · refine .inr ⟨needed, ?_, hneeded⟩
        simp only [Tuple.place, ParamType.slot, hd, if_true, Tuple.locate, hs]
    simpa [decodeField, sizeAt_of_ok hoff] using hrun.bind (by simp) (ht (base + off) v n hv)

theorem cut_fields (hk : k ≤ data.length)
    (ht : ∀ t ∈ ts, ∀ p v n, Runs (decodeAt data t p) (.ok v) n →
      CutRun k data.length (inspectAt data t p) (decodeAt (data.take k) t p) v n)
    (h : Runs (decodeFields data base cursor ts) (.ok vs) n) :
    CutRun k data.length (inspectFields data base cursor ts)
      (decodeFields (data.take k) base cursor ts) vs n := by
  induction ts generalizing cursor vs n with
  | nil =>
    obtain ⟨rfl, rfl⟩ := runs_nil_iff.mp h
    exact .of_runs (runs_pure [])
  | cons t ts ih =>
    obtain ⟨v, vs', i, j, hfield, hvs, rfl, rfl⟩ := runs_cons_iff.mp h
    have hpaid := field_paid (fun _ _ _ => runs_paid) hfield
    rw [inspectFields_cons, decodeFields_cons]
    exact (cut_field hk (ht t List.mem_cons_self) hfield).bind hpaid
      ((ih (fun u hu => ht u (List.mem_cons_of_mem t hu)) hvs).map (v :: ·))

theorem cut_items {m : Nat} (hk : k ≤ data.length)
    (ht : ∀ p v n, Runs (decodeAt data elem p) (.ok v) n →
      CutRun k data.length (inspectAt data elem p) (decodeAt (data.take k) elem p) v n)
    (hroom : Payload.checkRoom elem.headSize m data o = .ok ())
    (h : Runs (decodeFields data o o (List.replicate m elem)) (.ok vs) n) :
    CutRun k data.length (inspectFields data o o (List.replicate m elem)) (do
      liftM (Payload.checkRoom elem.headSize m (data.take k) o)
      let vs ← decodeFields (data.take k) o o (List.replicate m elem)
      pure (Value.array vs)) (.array vs) n := by
  have hcheck : CutRun k data.length []
      (liftM (Payload.checkRoom elem.headSize m (data.take k) o) : Decode Unit) () 0 :=
    .lift ((Payload.checkRoom_take hk hroom).imp_left fun hx => ⟨by simp, hx⟩)
  have hitems := cut_fields hk (ParamType.forall_items ht) h
  simpa using hcheck.bind (by simp) (hitems.map Value.array)

/-- A decode that ends well, on data that were cut off. -/
theorem cut_decodeAt (hk : k ≤ data.length) (h : Runs (decodeAt data t o) (.ok v) n) :
    CutRun k data.length (inspectAt data t o) (decodeAt (data.take k) t o) v n := by
  induction t using ParamType.codecInduction generalizing o v n with
  | scalar t ht =>
    obtain ⟨w, hw, rfl, rfl⟩ := (runs_scalar_iff ht).mp h
    rw [inspectAt_scalar ht, decodeAt_scalar ht]
    refine (CutRun.payFor (fun _ => 1) ((Payload.word_take hk hw).imp_left ?_)).map t.valueOfWord
    rintro ⟨hend, hx⟩
    exact ⟨by simpa [Span.stop] using hend, hx⟩
  | function => exact absurd h not_runs_function
  | bytes =>
    obtain ⟨bs, hbs, rfl, rfl⟩ := runs_bytes_iff.mp h
    rw [inspectAt, decodeAt_bytes, sizeAt_of_blob hbs]
    exact cut_blob (Payload.blob_take hk hbs)
  | string =>
    obtain ⟨s, hs, rfl, rfl⟩ := runs_string_iff.mp h
    rw [inspectAt, decodeAt_string, sizeAt_of_blob (Payload.text_ok_iff.mp hs)]
    exact cut_blob (Payload.text_take hk hs)
  | fixedArray elem m ih =>
    obtain ⟨hroom, vs, hvs, rfl⟩ := runs_fixedArray_iff.mp h
    rw [inspectAt_fixedArray, decodeAt_fixedArray]
    exact cut_items hk (fun _ _ _ => ih) hroom hvs
  | array elem ih =>
    obtain ⟨m, vs, i, hm, hroom, hvs, rfl, rfl⟩ := runs_array_iff.mp h
    rw [inspectAt_array, decodeAt_array, sizeAt_of_ok hm]
    have hcount : CutRun k data.length [⟨o, wordSize⟩] (payFor (Payload.size (data.take k) o) fun _ => 1) m 1 := by
      refine CutRun.payFor (fun _ => 1) ((Payload.size_take hk hm).imp_left ?_)
      rintro ⟨hend, hx⟩
      exact ⟨by simpa [Span.stop] using hend, hx⟩
    exact hcount.bind (by simp) (cut_items hk (fun _ _ _ => ih) hroom hvs)

theorem cut_decodeFields (hk : k ≤ data.length) (h : Runs (decodeFields data base cursor ts) (.ok vs) n) :
    CutRun k data.length (inspectFields data base cursor ts)
      (decodeFields (data.take k) base cursor ts) vs n :=
  cut_fields hk (fun _ _ _ _ _ => cut_decodeAt hk) h

end Calldata
