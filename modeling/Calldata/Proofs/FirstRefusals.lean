import Calldata.Proofs.Reading

/-!
# The first entry that is refused

Lists are read, encoded and loaded entry by entry, and the first entry that fails ends the whole. So
the error of a list is the one of an entry with nothing but good ones in front of it.
-/

namespace Calldata

variable {α β ε : Type} {accepts accepts' : α → Prop} {refuses refuses' : α → ε → Prop} {f : α → Except ε β}
  {x : α} {xs ys : List α} {e : ε} {k : Nat}

/-- The entry at the place is refused with the error, and all entries in front of it are accepted. -/
structure FirstRefused (accepts : α → Prop) (refuses : α → ε → Prop) (xs : List α) (k : Nat) (e : ε) : Prop where
  here : ∃ x, xs[k]? = some x ∧ refuses x e
  before (j : Nat) (x : α) (hj : j < k) (hx : xs[j]? = some x) : accepts x

theorem not_firstRefused_nil : ¬ FirstRefused accepts refuses [] k e := by
  rintro ⟨⟨x, hx, -⟩, -⟩
  simp at hx

theorem firstRefused_zero : FirstRefused accepts refuses (x :: xs) 0 e ↔ refuses x e := by
  constructor
  · rintro ⟨⟨y, hy, he⟩, -⟩
    obtain rfl := Option.some.inj hy
    exact he
  · intro he
    exact ⟨⟨x, rfl, he⟩, fun j y hj => absurd hj (Nat.not_lt_zero j)⟩

theorem firstRefused_succ :
    FirstRefused accepts refuses (x :: xs) (k + 1) e ↔ accepts x ∧ FirstRefused accepts refuses xs k e := by
  constructor
  · rintro ⟨hhere, hbefore⟩
    exact ⟨hbefore 0 x (by omega) rfl, hhere, fun j y hj hy => hbefore (j + 1) y (by omega) hy⟩
  · rintro ⟨hx, hhere, hbefore⟩
    refine ⟨hhere, fun j y hj hy => ?_⟩
    cases j with
    | zero => exact Option.some.inj hy ▸ hx
    | succ j => exact hbefore j y (by omega) hy

theorem FirstRefused.imp (h : FirstRefused accepts refuses xs k e) (haccepts : ∀ x ∈ xs, accepts x → accepts' x)
    (hrefuses : ∀ x ∈ xs, refuses x e → refuses' x e) : FirstRefused accepts' refuses' xs k e := by
  obtain ⟨x, hx, he⟩ := h.here
  refine ⟨⟨x, hx, hrefuses x (List.mem_of_getElem? hx) he⟩, fun j y hj hy => ?_⟩
  exact haccepts y (List.mem_of_getElem? hy) (h.before j y hj hy)

theorem firstRefused_congr (haccepts : ∀ x ∈ xs, (accepts x ↔ accepts' x))
    (hrefuses : ∀ x ∈ xs, (refuses x e ↔ refuses' x e)) :
    FirstRefused accepts refuses xs k e ↔ FirstRefused accepts' refuses' xs k e := by
  constructor
  · intro h
    exact h.imp (fun x hx => (haccepts x hx).mp) fun x hx => (hrefuses x hx).mp
  · intro h
    exact h.imp (fun x hx => (haccepts x hx).mpr) fun x hx => (hrefuses x hx).mpr

theorem firstRefused_map {g : β → α} {zs : List β} :
    FirstRefused accepts refuses (zs.map g) k e ↔ FirstRefused (fun z => accepts (g z)) (fun z => refuses (g z)) zs k e := by
  constructor
  · rintro ⟨⟨x, hx, he⟩, hbefore⟩
    rw [List.getElem?_map, Option.map_eq_some_iff] at hx
    obtain ⟨z, hz, rfl⟩ := hx
    refine ⟨⟨z, hz, he⟩, fun j y hj hy => hbefore j (g y) hj ?_⟩
    rw [List.getElem?_map, hy]
    rfl
  · rintro ⟨⟨z, hz, he⟩, hbefore⟩
    refine ⟨⟨g z, by rw [List.getElem?_map, hz]; rfl, he⟩, fun j y hj hy => ?_⟩
    rw [List.getElem?_map, Option.map_eq_some_iff] at hy
    obtain ⟨w, hw, rfl⟩ := hy
    exact hbefore j w hj hw

theorem FirstRefused.of_take (h : FirstRefused accepts refuses xs k e) (hys : ys.take (k + 1) = xs.take (k + 1)) :
    FirstRefused accepts refuses ys k e := by
  have hsame (j : Nat) (hj : j ≤ k) : ys[j]? = xs[j]? := by
    rw [← List.getElem?_take_of_lt (by omega : j < k + 1), hys, List.getElem?_take_of_lt (by omega)]
  obtain ⟨x, hx, he⟩ := h.here
  exact ⟨⟨x, (hsame k (Nat.le_refl k)).trans hx, he⟩,
    fun j y hj hy => h.before j y hj ((hsame j (by omega)).symm.trans hy)⟩

/-- An entry is accepted when the function has a result for it, and refused with the error otherwise. -/
abbrev FirstError (f : α → Except ε β) : List α → Nat → ε → Prop :=
  FirstRefused (fun x => ∃ y, f x = .ok y) (fun x e => f x = .error e)

theorem mapM_error_iff : xs.mapM f = .error e ↔ ∃ k, FirstError f xs k e := by
  induction xs with
  | nil => simp [pure, Except.pure, not_firstRefused_nil]
  | cons x xs ih =>
    rw [List.mapM_cons]
    constructor
    · intro h
      cases hx : f x with
      | error e' =>
        rw [hx] at h
        obtain rfl := Except.error.inj h
        exact ⟨0, firstRefused_zero.mpr hx⟩
      | ok y =>
        cases hxs : xs.mapM f with
        | error e' =>
          rw [hx, hxs] at h
          obtain rfl := Except.error.inj h
          obtain ⟨k, hk⟩ := ih.mp hxs
          exact ⟨k + 1, firstRefused_succ.mpr ⟨⟨y, hx⟩, hk⟩⟩
        | ok ys => simp [hx, hxs, bind, Except.bind, pure, Except.pure] at h
    · rintro ⟨k, hk⟩
      cases k with
      | zero =>
        rw [firstRefused_zero.mp hk]
        rfl
      | succ k =>
        obtain ⟨⟨y, hx⟩, hk⟩ := firstRefused_succ.mp hk
        rw [hx, ih.mpr ⟨k, hk⟩]
        rfl

end Calldata
