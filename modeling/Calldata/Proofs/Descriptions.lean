import Calldata.Interface.Description
import Calldata.Proofs.Reading
import Mathlib.Data.List.Forall2

/-!
# What descriptions are read as

A type that was read from its name has widths and lengths that a type may have, so all functions of
an interface that was read have well-formed parameters.
-/

namespace Calldata

theorem mapM_ok_iff {α β ε : Type} {f : α → Except ε β} {xs : List α} {ys : List β} :
    xs.mapM f = .ok ys ↔ List.Forall₂ (fun x y => f x = .ok y) xs ys := by
  induction xs generalizing ys with
  | nil => cases ys <;> simp [pure, Except.pure]
  | cons x xs ih =>
    rw [List.mapM_cons]
    cases hx : f x with
    | error e => cases ys <;> simp [bind, Except.bind, hx]
    | ok y =>
      cases hxs : xs.mapM f with
      | error e => cases ys <;> simp [bind, Except.bind, ← ih, hxs, hx]
      | ok rest => cases ys <;> simp [bind, Except.bind, pure, Except.pure, ← ih, hxs, hx]

theorem exists_of_mem_mapM {α β ε : Type} {f : α → Except ε β} {xs : List α} {ys : List β} {y : β}
    (h : xs.mapM f = .ok ys) (hy : y ∈ ys) : ∃ x, f x = .ok y := by
  rw [mapM_ok_iff] at h
  induction h with
  | nil => simp at hy
  | cons first rest ih =>
    rcases List.mem_cons.mp hy with rfl | hy
    · exact ⟨_, first⟩
    · exact ih hy

namespace ParamType

variable {name digits inner cs : List Char} {t elem : ParamType} {bits : Nat}

theorem wellFormed_of_keyword (h : keyword? name = some t) : t.WellFormed := by
  have hmem := List.mem_of_find?_eq_some h
  simp only [List.mem_cons, List.not_mem_nil, or_false] at hmem
  rcases hmem with rfl | rfl | rfl | rfl | rfl | rfl | rfl | rfl <;> trivial

theorem isWidth_of_width (h : width name digits = .ok bits) : IsWidth bits := by
  unfold width at h
  split at h
  · obtain rfl := Except.ok.inj h
    decide
  split at h
  · simp at h
  split at h
  · rename_i hwidth
    exact Except.ok.inj h ▸ hwidth
  · simp at h

theorem wellFormed_of_word (h : ofWord name = .ok t) : t.WellFormed := by
  unfold ofWord at h
  split at h
  · rename_i u hu
    exact Except.ok.inj h ▸ wellFormed_of_keyword hu
  split at h
  · obtain ⟨bits, hbits, rfl⟩ := map_ok_iff.mp h
    exact isWidth_of_width hbits
  · obtain ⟨bits, hbits, rfl⟩ := map_ok_iff.mp h
    exact isWidth_of_width hbits
  · simp at h

theorem wellFormed_of_bracketed (helem : elem.WellFormed) (h : bracketed name inner elem = .ok t) :
    t.WellFormed := by
  unfold bracketed at h
  split at h
  · exact Except.ok.inj h ▸ helem
  split at h
  · split at h
    · rename_i hlength
      exact Except.ok.inj h ▸ ⟨helem, hlength⟩
    · simp at h
  · simp at h

theorem wellFormed_of_parseChars (h : parseChars cs = .ok t) : t.WellFormed := by
  fun_induction parseChars cs generalizing t with
  | case1 | case3 | case4 | case5 => simp at h
  | case2 => exact wellFormed_of_word h
  | case6 cs name front back hsplit inner hclosed hfront elem helem =>
    rename_i ih
    exact wellFormed_of_bracketed (ih helem) h

end ParamType

theorem InputDescription.wellFormed_type {d : InputDescription} {p : Parameter}
    (h : d.toParameter = .ok p) : p.type.WellFormed := by
  unfold toParameter at h
  split at h
  · simp at h
  · obtain ⟨t, ht, rfl⟩ := map_ok_iff.mp h
    exact ParamType.wellFormed_of_parseChars ht

theorem EntryDescription.wellFormed_types {d : EntryDescription} {f : Function}
    (h : d.toFunction = .ok f) : ∀ t ∈ f.types, t.WellFormed := by
  unfold toFunction at h
  split at h
  · simp at h
  split at h
  · simp at h
  split at h
  · simp at h
  · obtain ⟨ps, hps, rfl⟩ := map_ok_iff.mp h
    intro t ht
    obtain ⟨p, hp, rfl⟩ := List.mem_map.mp ht
    obtain ⟨input, hinput⟩ := exists_of_mem_mapM hps hp
    exact InputDescription.wellFormed_type hinput

theorem Interface.wellFormed_of_parse {text : String} {i : Interface} (h : Interface.parse text = .ok i) :
    ∀ f ∈ i.functions, ∀ t ∈ f.types, t.WellFormed := by
  unfold parse ofEntries at h
  split at h
  · simp at h
  · obtain ⟨fs, hfs, rfl⟩ := map_ok_iff.mp h
    intro f hf
    obtain ⟨entry, hentry⟩ := exists_of_mem_mapM hfs hf
    exact EntryDescription.wellFormed_types hentry

end Calldata
