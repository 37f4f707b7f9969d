import Calldata.Json.Draft
import Mathlib.Tactic.Common

/-!
# Strings in JSON texts

A string that was written as JSON is read back, whatever its characters are.
-/

namespace Calldata.Json

variable {cs rest more : List Char} {c e : Char} {ps : List Draft.Piece} {u : Nat}

theorem escape_cases (c : Char) :
    (escape c = [c] ∧ c ≠ '"' ∧ c ≠ '\\' ∧ 32 ≤ c.toNat) ∨
    (∃ e, escape c = ['\\', e] ∧ Draft.letter? e = some c) ∨
    (escape c = ['\\', 'u', '0', '0', hexDigitChar (c.toNat / 16), hexDigitChar (c.toNat % 16)] ∧ c.toNat < 32) := by
  unfold escape
  split
  · exact .inr (.inl ⟨'"', rfl, rfl⟩)
  · exact .inr (.inl ⟨'\\', rfl, rfl⟩)
  · exact .inr (.inl ⟨'n', rfl, rfl⟩)
  · exact .inr (.inl ⟨'r', rfl, rfl⟩)
  · exact .inr (.inl ⟨'t', rfl, rfl⟩)
  rename_i hquote hslash _ _ _
  split
  · rename_i h
    have hc : c = '\x08' := Char.toNat_inj.mp h
    exact .inr (.inl ⟨'b', rfl, by rw [hc]; rfl⟩)
  split
  · rename_i h
    have hc : c = '\x0c' := Char.toNat_inj.mp h
    exact .inr (.inl ⟨'f', rfl, by rw [hc]; rfl⟩)
  split
  · rename_i h
    exact .inr (.inr ⟨rfl, h⟩)
  · rename_i h
    exact .inl ⟨rfl, hquote, hslash, Nat.le_of_not_lt h⟩

namespace Draft

/-! ## Pieces -/

theorem pieces_char (hquote : c ≠ '"') (hslash : c ≠ '\\') (hcontrol : 32 ≤ c.toNat)
    (h : pieces rest = some (ps, more)) : pieces (c :: rest) = some (.char c :: ps, more) := by
  rw [pieces.eq_5 c rest hquote (fun _ _ _ _ _ heq _ => hslash heq) (fun _ _ heq _ => hslash heq),
    if_neg (Nat.not_lt_of_le hcontrol), h]
  rfl

theorem pieces_letter (hletter : letter? e = some c) (h : pieces rest = some (ps, more)) :
    pieces ('\\' :: e :: rest) = some (.char c :: ps, more) := by
  have hu : e ≠ 'u' := by
    rintro rfl
    simp [letter?] at hletter
  rw [pieces.eq_4 e rest (fun _ _ _ _ _ heq _ => hu heq), hletter, h]
  rfl

theorem unit?_control (h : u < 32) : unit? '0' '0' (hexDigitChar (u / 16)) (hexDigitChar (u % 16)) = some u := by
  -- There are few controls, so the digits of each can be looked up.
  revert u
  decide

theorem pieces_unit (hu : u < 32) (h : pieces rest = some (ps, more)) :
    pieces ('\\' :: 'u' :: '0' :: '0' :: hexDigitChar (u / 16) :: hexDigitChar (u % 16) :: rest) =
      some (.unit u :: ps, more) := by
  rw [pieces, unit?_control hu, h]
  rfl

theorem chars?_unit (hu : u < 0xD800) : chars? (.unit u :: ps) = (chars? ps).map (Char.ofNat u :: ·) := by
  by_cases hpair : ∃ low rest, ps = .unit low :: rest
  · obtain ⟨low, rest, rfl⟩ := hpair
    rw [chars?, if_neg (by omega), if_neg (by omega)]
  · rw [chars?.eq_4 u ps (fun low rest heq => hpair ⟨low, rest, heq⟩), if_neg (by omega)]

theorem pieces_escape (c : Char) (hps : pieces rest = some (ps, more)) (hcs : chars? ps = some cs) :
    ∃ ps', pieces (escape c ++ rest) = some (ps', more) ∧ chars? ps' = some (c :: cs) := by
  rcases escape_cases c with ⟨hescape, hquote, hslash, hcontrol⟩ | ⟨e, hescape, hletter⟩ | ⟨hescape, hcontrol⟩
  · refine ⟨.char c :: ps, ?_, ?_⟩
    · rw [hescape]
      exact pieces_char hquote hslash hcontrol hps
    · rw [chars?, hcs]
      rfl
  · refine ⟨.char c :: ps, ?_, ?_⟩
    · rw [hescape]
      exact pieces_letter hletter hps
    · rw [chars?, hcs]
      rfl
  · refine ⟨.unit c.toNat :: ps, ?_, ?_⟩
    · rw [hescape]
      exact pieces_unit hcontrol hps
    · rw [chars?_unit (by omega), hcs, Char.ofNat_toNat]
      rfl

theorem pieces_escaped (cs rest : List Char) :
    ∃ ps, pieces (cs.flatMap escape ++ '"' :: rest) = some (ps, rest) ∧ chars? ps = some cs := by
  induction cs with
  | nil => exact ⟨[], rfl, rfl⟩
  | cons c cs ih =>
    obtain ⟨ps, hps, hcs⟩ := ih
    rw [List.flatMap_cons, List.append_assoc]
    exact pieces_escape c hps hcs

theorem value_quoted (fuel : Nat) (h : pieces rest = some (ps, more)) :
    value (fuel + 1) ('"' :: rest) = some (.string (text? ps), more) := by
  have hskip : skip ('"' :: rest) = '"' :: rest := rfl
  rw [value, hskip]
  simp only [h, Option.map_some]

theorem read?_quoted (s : String) : read? (quoted s) = some (.string (some s)) := by
  obtain ⟨ps, hps, hcs⟩ := pieces_escaped s.toList []
  have hs : text? ps = some s := by
    rw [text?, hcs, Option.map_some, String.ofList_toList]
  have hlist : (quoted s).toList = '"' :: (s.toList.flatMap escape ++ ['"']) := by
    unfold quoted
    rw [String.toList_ofList]
    rfl
  unfold read?
  simp only [hlist, value_quoted _ hps, hs]
  rfl

end Draft

/-- The text of a string is read back as the string. -/
theorem read?_compact (s : String) : read? (compact (.string s)) = some (.string s) := by
  have htext : compact (.string s) = quoted s := rfl
  rw [htext, read?, Draft.read?_quoted]
  rfl

end Calldata.Json
