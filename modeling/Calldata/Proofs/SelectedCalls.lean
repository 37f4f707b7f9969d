import Calldata.Proofs.Addressing

/-!
# Calls and the functions they select

An interface decodes a call as its functions would, each for itself: those with another selector refuse
it, and the first of the others says how the call ends. No fault of arguments can be taken for a refusal
because of the selector.
-/

namespace Calldata

variable {α β : Type} {data call : Bytes} {t elem : ParamType} {ts : List ParamType} {f : Function} {i : Interface}
  {hash : HashFunction} {fault : Fault} {o n base cursor : Nat}

/-! ## Faults of arguments -/

/-- The faults that arguments may have. None of them is about a selector. -/
def Fault.OfArguments : Fault → Prop
  | .shortData _ _ | .badLength _ | .badUtf8 _ | .functionNotDecodable | .tooMuchOutput _ => True
  | _ => False

theorem ofArguments_of_error {e : Fault} (h : (.error e : Except Fault α) = .error fault) (he : e.OfArguments) :
    fault.OfArguments := Except.error.inj h ▸ he

namespace Payload

theorem slice_fault (h : slice data o n = .error fault) : fault.OfArguments := by
  unfold slice at h
  simp only at h
  split at h
  · exact ofArguments_of_error h trivial
  split at h
  · exact ofArguments_of_error h trivial
  · simp at h

theorem word_fault (h : word data o = .error fault) : fault.OfArguments := slice_fault (map_error_iff.mp h)

theorem size_fault (h : size data o = .error fault) : fault.OfArguments := by
  unfold size at h
  split at h
  · rename_i e he
    exact ofArguments_of_error h (word_fault he)
  split at h
  · exact ofArguments_of_error h trivial
  · simp at h

theorem blob_fault (h : blob data o = .error fault) : fault.OfArguments := by
  unfold blob at h
  split at h
  · rename_i e he
    exact ofArguments_of_error h (size_fault he)
  · exact slice_fault h

theorem text_fault (h : text data o = .error fault) : fault.OfArguments := by
  unfold text at h
  split at h
  · rename_i e he
    exact ofArguments_of_error h (blob_fault he)
  split at h
  · simp at h
  · exact ofArguments_of_error h trivial

theorem checkRoom_fault (h : checkRoom o n data base = .error fault) : fault.OfArguments := by
  unfold checkRoom at h
  simp only at h
  split at h
  · exact ofArguments_of_error h trivial
  · simp at h

end Payload

theorem place_fault {slot : Slot} (h : Tuple.place data base cursor slot = .error fault) : fault.OfArguments := by
  unfold Tuple.place Tuple.locate at h
  split at h
  · split at h
    · rename_i e he
      exact ofArguments_of_error h (Payload.size_fault he)
    split at h
    · exact ofArguments_of_error h trivial
    · simp at h
  · simp at h

/-! ## Steps that blame the arguments -/

/-- If the step fails, the arguments are to blame, whatever the budget. -/
def BlamesArguments (m : Decode α) : Prop := ∀ b fault, m.run b = .error fault → fault.OfArguments

theorem blames_pure (a : α) : BlamesArguments (pure a) := by
  intro b fault h
  change Except.ok (a, b) = .error fault at h
  simp at h

theorem blames_lift {x : Except Fault α} (hx : ∀ fault, x = .error fault → fault.OfArguments) :
    BlamesArguments (liftM x) := by
  intro b fault h
  cases x with
  | error e => exact ofArguments_of_error h (hx e rfl)
  | ok a =>
    change Except.ok (a, b) = .error fault at h
    simp at h

theorem blames_spend (n : Nat) : BlamesArguments (spend n) := by
  intro b fault h
  have hcharge : b.charge n = .error fault := map_error_iff.mp h
  unfold Budget.charge at hcharge
  split at hcharge
  · simp at hcharge
  split at hcharge
  · simp at hcharge
  · exact ofArguments_of_error hcharge trivial

theorem BlamesArguments.bind {m : Decode α} {k : α → Decode β} (hm : BlamesArguments m)
    (hk : ∀ a, BlamesArguments (k a)) : BlamesArguments (m >>= k) := by
  intro b fault h
  rw [StateT.run_bind] at h
  cases hrun : m.run b with
  | error e =>
    rw [hrun] at h
    exact ofArguments_of_error h (hm b e hrun)
  | ok r =>
    rw [hrun] at h
    exact hk r.1 r.2 fault h

theorem blames_payFor {x : Except Fault α} {cost : α → Nat} (hx : ∀ fault, x = .error fault → fault.OfArguments) :
    BlamesArguments (payFor x cost) :=
  (blames_lift hx).bind fun a => (blames_spend (cost a)).bind fun _ => blames_pure a

theorem blames_fields (ht : ∀ t ∈ ts, ∀ p, BlamesArguments (decodeAt data t p)) :
    BlamesArguments (decodeFields data base cursor ts) := by
  induction ts generalizing cursor with
  | nil => exact blames_pure []
  | cons t ts ih =>
    have hfield : BlamesArguments (decodeField data base cursor t) :=
      (blames_lift fun _ => place_fault).bind (ht t List.mem_cons_self)
    rw [decodeFields_cons]
    apply hfield.bind
    intro v
    exact (ih fun u hu => ht u (List.mem_cons_of_mem t hu)).bind fun vs => blames_pure (v :: vs)

theorem blames_items (n : Nat) (ht : ∀ p, BlamesArguments (decodeAt data elem p)) : BlamesArguments (do
    liftM (Payload.checkRoom elem.headSize n data o)
    let vs ← decodeFields data o o (List.replicate n elem)
    pure (Value.array vs)) := by
  apply (blames_lift fun _ => Payload.checkRoom_fault).bind
  intro _
  exact (blames_fields (ParamType.forall_items ht)).bind fun _ => blames_pure _

theorem blames_decodeAt (data : Bytes) (t : ParamType) (o : Nat) : BlamesArguments (decodeAt data t o) := by
  induction t using ParamType.codecInduction generalizing o with
  | scalar t ht =>
    rw [decodeAt_scalar ht]
    exact (blames_payFor fun _ => Payload.word_fault).bind fun _ => blames_pure _
  | function =>
    apply blames_lift
    intro fault h
    exact ofArguments_of_error h trivial
  | bytes =>
    rw [decodeAt_bytes]
    exact (blames_payFor fun _ => Payload.blob_fault).bind fun _ => blames_pure _
  | string =>
    rw [decodeAt_string]
    exact (blames_payFor fun _ => Payload.text_fault).bind fun _ => blames_pure _
  | fixedArray elem n ih =>
    rw [decodeAt_fixedArray]
    exact blames_items n ih
  | array elem ih =>
    rw [decodeAt_array]
    exact (blames_payFor fun _ => Payload.size_fault).bind fun n => blames_items n ih

theorem decode_fault (h : decode ts data = .error fault) : fault.OfArguments := by
  have hrun : ((decodeTuple ts data).run (Budget.ofPayload data)).map Prod.fst = .error fault := h
  rw [decodeTuple_eq] at hrun
  exact blames_fields (fun t _ => blames_decodeAt data t) _ _ (map_error_iff.mp hrun)

/-! ## One function -/

theorem splitCall_short (h : call.length < selectorSize) :
    splitCall call = .error (.shortData selectorSize call.length) := by
  unfold splitCall
  rw [if_pos h]

theorem splitCall_long (h : selectorSize ≤ call.length) :
    splitCall call = .ok (call.take selectorSize, call.drop selectorSize) := by
  unfold splitCall
  rw [if_neg (Nat.not_lt.mpr h)]

/-- A call is refused because it is not one of the function. -/
def Mismatched (r : Except Fault α) : Prop := ∃ expected got, r = .error (.otherSelector expected got)

namespace Function

theorem decodeCall_short (h : call.length < selectorSize) :
    f.decodeCall call hash = .error (.shortData selectorSize call.length) := by
  unfold decodeCall
  rw [splitCall_short h]

theorem decodeCall_other (h : selectorSize ≤ call.length) (hf : f.selector hash ≠ call.take selectorSize) :
    f.decodeCall call hash = .error (.otherSelector (f.selector hash) (call.take selectorSize)) := by
  unfold decodeCall
  rw [splitCall_long h]
  exact if_pos (Ne.symm hf)

theorem decodeCall_own (h : selectorSize ≤ call.length) (hf : f.selector hash = call.take selectorSize) :
    f.decodeCall call hash = decode f.types (call.drop selectorSize) := by
  unfold decodeCall
  rw [splitCall_long h]
  exact if_neg (by simp [hf])

theorem mismatched_iff (h : selectorSize ≤ call.length) :
    Mismatched (f.decodeCall call hash) ↔ f.selector hash ≠ call.take selectorSize := by
  constructor
  · rintro ⟨expected, got, hfault⟩ hf
    rw [decodeCall_own h hf] at hfault
    exact decode_fault hfault
  · intro hf
    exact ⟨_, _, decodeCall_other h hf⟩

end Function

/-! ## The functions of an interface -/

theorem FirstAt.congr {P Q : Function → Prop} {p : Nat} (h : FirstAt i P p f) (hPQ : ∀ g, P g ↔ Q g) :
    FirstAt i Q p f where
  here := h.here
  property := (hPQ f).mp h.property
  first k g hk hg hQ := h.first k g hk hg ((hPQ g).mpr hQ)

namespace Interface

theorem decodeCall_short (h : call.length < selectorSize) :
    i.decodeCall call hash = .error (.shortData selectorSize call.length) := by
  unfold decodeCall
  rw [splitCall_short h]

theorem decodeCall_unselected (h : selectorSize ≤ call.length)
    (hi : i.selected? (call.take selectorSize) hash = none) :
    i.decodeCall call hash = .error (.noSuchSelector (call.take selectorSize)) := by
  unfold decodeCall
  rw [splitCall_long h]
  simp only [hi]

theorem decodeCall_selected (h : selectorSize ≤ call.length)
    (hi : i.selected? (call.take selectorSize) hash = some f) :
    i.decodeCall call hash = (decode f.types (call.drop selectorSize)).map (f, ·) := by
  unfold decodeCall
  rw [splitCall_long h]
  simp only [hi]
  rfl

theorem selected?_eq_none_iff {selector : Bytes} :
    i.selected? selector hash = none ↔ ∀ f ∈ i.functions, f.selector hash ≠ selector := by
  simp [selected?]

theorem firstAt_of_selected (h : selectorSize ≤ call.length)
    (hi : i.selected? (call.take selectorSize) hash = some f) :
    ∃ p, FirstAt i (fun g => ¬ Mismatched (g.decodeCall call hash)) p f := by
  obtain ⟨p, hp⟩ := firstAt_of_find hi
  refine ⟨p, hp.congr fun g => ?_⟩
  rw [Function.mismatched_iff h]
  exact not_not.symm

theorem unselected_iff (h : selectorSize ≤ call.length) :
    i.selected? (call.take selectorSize) hash = none ↔ ∀ f ∈ i.functions, Mismatched (f.decodeCall call hash) := by
  simp only [selected?_eq_none_iff, Function.mismatched_iff h]

theorem decodeCall_unselected_iff (h : selectorSize ≤ call.length) {s : Bytes} :
    i.decodeCall call hash = .error (.noSuchSelector s) ↔
      s = call.take selectorSize ∧ i.selected? (call.take selectorSize) hash = none := by
  constructor
  · intro hfault
    cases hi : i.selected? (call.take selectorSize) hash with
    | none =>
      rw [decodeCall_unselected h hi] at hfault
      simp_all
    | some f =>
      rw [decodeCall_selected h hi] at hfault
      -- The arguments of a selected function have faults of their own.
      exact False.elim (decode_fault (map_error_iff.mp hfault))
  · rintro ⟨rfl, hi⟩
    exact decodeCall_unselected h hi

/-- An interface decodes a call as the first of its functions that does not refuse the call for its
selector, even when that one finds a fault in the arguments and a later one would not. The arguments
are read as data of their own, with a budget of their own. -/
theorem decodeCall_first (hash : HashFunction) (i : Interface) (call : Bytes) :
    (call.length < selectorSize →
      i.decodeCall call hash = .error (.shortData selectorSize call.length) ∧
      ∀ f : Function, f.decodeCall call hash = .error (.shortData selectorSize call.length)) ∧
    (selectorSize ≤ call.length →
      ((∃ f ∈ i.functions, ¬ Mismatched (f.decodeCall call hash)) →
        ∃ p f, FirstAt i (fun g => ¬ Mismatched (g.decodeCall call hash)) p f ∧
          i.decodeCall call hash = (f.decodeCall call hash).map (f, ·) ∧
          f.decodeCall call hash = (decodeTuple f.types (call.drop selectorSize)).run'
            (Budget.ofPayload (call.drop selectorSize))) ∧
      ∀ s, i.decodeCall call hash = .error (.noSuchSelector s) ↔
        s = call.take selectorSize ∧ ∀ f ∈ i.functions, Mismatched (f.decodeCall call hash)) := by
  constructor
  · intro hshort
    exact ⟨decodeCall_short hshort, fun f => Function.decodeCall_short hshort⟩
  · intro hlong
    constructor
    · rintro ⟨g, hg, hown⟩
      cases hi : i.selected? (call.take selectorSize) hash with
      | none => exact absurd ((unselected_iff hlong).mp hi g hg) hown
      | some f =>
        obtain ⟨p, hp⟩ := firstAt_of_selected hlong hi
        have hf : f.selector hash = call.take selectorSize := by
          obtain ⟨q, hq⟩ := firstAt_of_find hi
          exact hq.property
        have hdecode := Function.decodeCall_own hlong hf
        refine ⟨p, f, hp, ?_, hdecode⟩
        rw [decodeCall_selected hlong hi, hdecode]
    · intro s
      rw [decodeCall_unselected_iff hlong, unselected_iff hlong]

/-- A call without arguments is refused as one of `approve`, though `abort` would take it. -/
theorem decodeCall_first_colliding :
    let hash : HashFunction := fun bs => ⟨List.replicate 32 (bs.headD 0), by simp [IdKind.size]⟩
    let approve : Function := ⟨"approve", [⟨"", .bool, false⟩]⟩
    let abort : Function := ⟨"abort", []⟩
    let transfer : Function := ⟨"transfer", []⟩
    let i : Interface := ⟨[approve, abort, transfer]⟩
    let call (letter : UInt8) : Bytes := List.replicate 4 letter
    i.decodeCall [97, 97] hash = .error (.shortData 4 2) ∧
      abort.decodeCall (call 97) hash = .ok [] ∧
      i.decodeCall (call 97) hash = .error (.shortData 32 0) ∧
      i.decodeCall (call 116) hash = .ok (transfer, []) ∧
      i.decodeCall (call 122) hash = .error (.noSuchSelector (call 122)) := by
  intro hash approve abort transfer i call
  have hall := decodeCall_first hash i
  have habort : abort.decodeCall (call 97) hash = .ok [] := eq_ok_of_toOption (by decide +kernel)
  refine ⟨((hall [97, 97]).1 (by decide)).1, habort, ?_, eq_ok_of_toOption (by decide +kernel), ?_⟩
  · have hlong : selectorSize ≤ (call 97).length := by decide
    have hown : ¬ Mismatched (abort.decodeCall (call 97) hash) := by
      rw [habort]
      simp [Mismatched]
    obtain ⟨p, f, hp, hdecode, -⟩ := ((hall (call 97)).2 hlong).1 ⟨abort, by simp [i], hown⟩
    have hselector : approve.selector hash = (call 97).take selectorSize := by decide +kernel
    cases p with
    | zero =>
      obtain rfl : approve = f := Option.some.inj hp.here
      rw [hdecode, Function.decodeCall_own hlong hselector]
      rfl
    | succ p =>
      have happrove := hp.first 0 approve (Nat.succ_pos p) rfl
      rw [Function.mismatched_iff hlong] at happrove
      exact absurd hselector (fun h => happrove fun h' => h' h)
  · have hlong : selectorSize ≤ (call 122).length := by decide
    refine (((hall (call 122)).2 hlong).2 _).mpr ⟨rfl, fun f hf => ?_⟩
    rw [Function.mismatched_iff hlong]
    have hothers : ∀ f ∈ i.functions, f.selector hash ≠ (call 122).take selectorSize := by decide +kernel
    exact hothers f hf

end Interface

end Calldata
