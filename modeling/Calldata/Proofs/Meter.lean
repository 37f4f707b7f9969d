import Calldata.Payload
import Mathlib.Algebra.Order.Ring.Nat

/-!
# What a decode spends

A decoding step ends in the same way under every budget that lasts until then, and no step looks
at what is left. `Runs` says how a step ends and what it has spent by then, so that a budget
becomes a comparison of two numbers.
-/

namespace Calldata

variable {α β : Type} {m : Decode α} {f : α → Decode β} {a : α} {b : β} {e : Fault}
  {r : Except Fault α} {s : Except Fault β} {i j limit remaining : Nat}

/-- The step ends as `result`, and it has spent `n` words by then. -/
structure Runs (m : Decode α) (result : Except Fault α) (n : Nat) : Prop where
  unlimited : m.run .unlimited = result.map (·, .unlimited)
  enough (limit remaining : Nat) (h : n ≤ remaining) :
    m.run (.limited limit remaining) = result.map (·, .limited limit (remaining - n))
  short (limit remaining : Nat) (h : remaining < n) :
    m.run (.limited limit remaining) = .error (.tooMuchOutput limit)

/-- The step ends in one way only, whatever its budget. -/
def Metered (m : Decode α) : Prop := ∃ result n, Runs m result n

/-! ## Steps -/

theorem runs_pure (a : α) : Runs (pure a : Decode α) (.ok a) 0 where
  unlimited := rfl
  enough _ _ _ := rfl
  short _ _ h := absurd h (Nat.not_lt_zero _)

theorem runs_lift (x : Except Fault α) : Runs (liftM x : Decode α) x 0 where
  unlimited := by cases x <;> rfl
  enough _ _ _ := by cases x <;> rfl
  short _ _ h := absurd h (Nat.not_lt_zero _)

theorem runs_spend (n : Nat) : Runs (spend n) (.ok ()) n where
  unlimited := rfl
  enough limit remaining h := by
    change (Budget.charge n (.limited limit remaining)).map ((), ·) = _
    rw [Budget.charge, if_pos h]
    rfl
  short limit remaining h := by
    change (Budget.charge n (.limited limit remaining)).map ((), ·) = _
    rw [Budget.charge, if_neg (by omega)]
    rfl

theorem Runs.bind (hm : Runs m (.ok a) i) (hf : Runs (f a) s j) : Runs (m >>= f) s (i + j) where
  unlimited := by
    rw [StateT.run_bind, hm.unlimited]
    exact hf.unlimited
  enough limit remaining h := by
    rw [StateT.run_bind, hm.enough limit remaining (by omega)]
    change (f a).run (.limited limit (remaining - i)) = _
    rw [hf.enough _ _ (by omega), Nat.sub_sub]
  short limit remaining h := by
    rw [StateT.run_bind]
    by_cases hi : i ≤ remaining
    · rw [hm.enough limit remaining hi]
      exact hf.short limit (remaining - i) (by omega)
    · rw [hm.short limit remaining (by omega)]
      rfl

theorem Runs.bind_error (hm : Runs m (.error e) i) : Runs (m >>= f) (.error e) i where
  unlimited := by
    rw [StateT.run_bind, hm.unlimited]
    rfl
  enough limit remaining h := by
    rw [StateT.run_bind, hm.enough limit remaining h]
    rfl
  short limit remaining h := by
    rw [StateT.run_bind, hm.short limit remaining h]
    rfl

/-! ## Every step is metered -/

theorem metered_pure (a : α) : Metered (pure a : Decode α) := ⟨_, _, runs_pure a⟩

theorem metered_lift (x : Except Fault α) : Metered (liftM x : Decode α) := ⟨_, _, runs_lift x⟩

theorem metered_spend (n : Nat) : Metered (spend n) := ⟨_, _, runs_spend n⟩

theorem Metered.bind (hm : Metered m) (hf : ∀ a, Metered (f a)) : Metered (m >>= f) := by
  obtain ⟨r, i, hr⟩ := hm
  cases r with
  | error e => exact ⟨_, _, hr.bind_error⟩
  | ok a =>
    obtain ⟨s, j, hs⟩ := hf a
    exact ⟨_, _, hr.bind hs⟩

/-! ## What a run determines -/

theorem Runs.result_unique (h : Runs m r i) {r' : Except Fault α} (h' : Runs m r' j) : r = r' := by
  have hr := h.unlimited.symm.trans h'.unlimited
  cases r <;> cases r' <;> simp_all [Except.map]

theorem Runs.spent_le (h : Runs m r i) {r' : Except Fault α} (h' : Runs m r' j) : i ≤ j := by
  refine Nat.le_of_not_lt fun hij => ?_
  -- With fewer words the step fails at every limit, and the fault names the limit.
  have fails (limit : Nat) :
      r'.map (·, Budget.limited limit (j - j)) = .error (.tooMuchOutput limit) :=
    (h'.enough limit j (Nat.le_refl j)).symm.trans (h.short limit j hij)
  cases r' with
  | ok a => simpa [Except.map] using fails 0
  | error e =>
    have h0 := fails 0
    have h1 := fails 1
    simp_all [Except.map]

theorem Runs.spent_unique (h : Runs m r i) {r' : Except Fault α} (h' : Runs m r' j) : i = j :=
  Nat.le_antisymm (h.spent_le h') (h'.spent_le h)

theorem runs_bind_iff (hm : Metered m) (hf : ∀ a, Metered (f a)) {n : Nat} :
    Runs (m >>= f) (.ok b) n ↔
      ∃ a i j, Runs m (.ok a) i ∧ Runs (f a) (.ok b) j ∧ n = i + j := by
  constructor
  · intro h
    obtain ⟨r, i, hr⟩ := hm
    cases r with
    | error e => exact absurd (h.result_unique hr.bind_error) (by simp)
    | ok a =>
      obtain ⟨s, j, hs⟩ := hf a
      have hab := hr.bind hs
      obtain rfl : Except.ok b = s := h.result_unique hab
      exact ⟨a, i, j, hr, hs, h.spent_unique hab⟩
  · rintro ⟨a, i, j, ha, hb, rfl⟩
    exact ha.bind hb

theorem runs_pure_iff {a' : α} {n : Nat} : Runs (pure a' : Decode α) (.ok a) n ↔ a = a' ∧ n = 0 := by
  constructor
  · intro h
    exact ⟨Except.ok.inj (h.result_unique (runs_pure a')), h.spent_unique (runs_pure a')⟩
  · rintro ⟨rfl, rfl⟩
    exact runs_pure _

theorem runs_lift_bind_iff {x : Except Fault α} (hf : ∀ a, Metered (f a)) {n : Nat} :
    Runs ((liftM x : Decode α) >>= f) (.ok b) n ↔ ∃ a, x = .ok a ∧ Runs (f a) (.ok b) n := by
  rw [runs_bind_iff (metered_lift x) hf]
  constructor
  · rintro ⟨a, i, j, hx, hb, rfl⟩
    obtain rfl : i = 0 := hx.spent_unique (runs_lift x)
    exact ⟨a, (runs_lift x).result_unique hx, by simpa using hb⟩
  · rintro ⟨a, rfl, hb⟩
    exact ⟨a, 0, n, runs_lift _, hb, by simp⟩

theorem runs_map_iff {g : α → β} {n : Nat} (hm : Metered m) :
    Runs (m >>= fun a => pure (g a)) (.ok b) n ↔ ∃ a, Runs m (.ok a) n ∧ b = g a := by
  rw [runs_bind_iff hm fun a => metered_pure (g a)]
  constructor
  · rintro ⟨a, i, j, ha, hb, rfl⟩
    obtain ⟨rfl, rfl⟩ := runs_pure_iff.mp hb
    exact ⟨a, ha, rfl⟩
  · rintro ⟨a, ha, rfl⟩
    exact ⟨a, n, 0, ha, runs_pure _, rfl⟩

/-! ## Paid readings -/

/-- Reads, and pays for what was read. -/
def payFor (x : Except Fault α) (cost : α → Nat) : Decode α := do
  let a ← x
  spend (cost a)
  pure a

theorem metered_payFor (x : Except Fault α) (cost : α → Nat) : Metered (payFor x cost) :=
  (metered_lift x).bind fun a => (metered_spend (cost a)).bind fun _ => metered_pure a

theorem runs_payFor_ok {x : Except Fault α} (cost : α → Nat) (h : x = .ok a) :
    Runs (payFor x cost) (.ok a) (cost a) := by
  have hread : Runs (liftM x : Decode α) (.ok a) 0 := h ▸ runs_lift x
  have hspend : Runs (do spend (cost a); pure a) (.ok a) (cost a + 0) :=
    (runs_spend (cost a)).bind (runs_pure a)
  have hrun : Runs (payFor x cost) (.ok a) (0 + (cost a + 0)) := hread.bind hspend
  rwa [Nat.zero_add] at hrun

theorem runs_payFor_error {x : Except Fault α} (cost : α → Nat) (h : x = .error e) :
    Runs (payFor x cost) (.error e) 0 := by
  subst h
  exact (runs_lift _).bind_error

theorem runs_payFor_iff {x : Except Fault α} {cost : α → Nat} {n : Nat} :
    Runs (payFor x cost) (.ok a) n ↔ x = .ok a ∧ n = cost a := by
  constructor
  · intro h
    cases hx : x with
    | error e => exact absurd (h.result_unique (runs_payFor_error cost hx)) (by simp)
    | ok a' =>
      have hrun := runs_payFor_ok cost hx
      obtain rfl : a = a' := Except.ok.inj (h.result_unique hrun)
      exact ⟨rfl, h.spent_unique hrun⟩
  · rintro ⟨hx, rfl⟩
    exact runs_payFor_ok cost hx

/-! ## Budgets -/

theorem Runs.run'_unlimited (h : Runs m r i) : m.run' .unlimited = r := by
  change Prod.fst <$> m.run .unlimited = r
  rw [h.unlimited]
  cases r <;> rfl

theorem Runs.run'_limited (h : Runs m r i) :
    m.run' (.limited limit remaining) = if i ≤ remaining then r else .error (.tooMuchOutput limit) := by
  change Prod.fst <$> m.run (.limited limit remaining) = _
  by_cases hi : i ≤ remaining
  · rw [h.enough limit remaining hi, if_pos hi]
    cases r <;> rfl
  · rw [h.short limit remaining (by omega), if_neg hi]
    rfl

/-- The budget of data that can be held is two words for each word of them. -/
theorem budget_ofPayload {data : Bytes} (h : data.length < 2 ^ 63) :
    Budget.ofPayload data = .limited (2 * wordsFor data.length) (2 * wordsFor data.length) := by
  have hw : 2 * wordsFor data.length ≤ maxSize := by
    simp only [wordsFor, wordSize, maxSize]
    omega
  simp only [Budget.ofPayload, amplification, Nat.min_eq_left hw]

end Calldata
