import Calldata.Cli.Settings
import Calldata.Proofs.QuotedTexts
import Mathlib.Data.List.TakeDrop

/-!
# A settings file is read back

What is written into a settings file is what the reader finds there. Every entry stands on a line of
its own, under a key without quotes.
-/

namespace Calldata

namespace Toml

variable {fuel room : Nat} {c d : Char} {k : String} {cs rest : List Char} {v : Toml}

theorem span_append {p : Char → Bool} (hfront : ∀ c ∈ cs, p c = true) (hd : p d = false) :
    (cs ++ d :: rest).span p = (cs, d :: rest) := by
  rw [List.span_eq_takeWhile_dropWhile, List.takeWhile_append_of_pos hfront, List.dropWhile_append_of_pos hfront]
  simp [hd]

/-! ## Values -/

/-- A value as it is written: a reader finds it, and stops at the end of the line. -/
structure Writes (cs : List Char) (v : Toml) : Prop where
  dense (rest : List Char) : gap (cs ++ rest) = cs ++ rest
  oneEnd : '\r' ∉ cs
  read (fuel room : Nat) (rest : List Char) : value (fuel + 1) room (cs ++ '\n' :: rest) = some (v, '\n' :: rest)

theorem writes_quoted (s : String) : Writes (quotedChars s.toList) (string s) where
  dense rest := by
    obtain ⟨q, body, heq, hq⟩ := exists_quotedChars s.toList
    rw [heq]
    rcases hq with rfl | rfl <;> rfl
  oneEnd := return_notMem_quotedChars s.toList
  read fuel room rest := by
    have hread := quotedText_quotedChars s.toList rest
    obtain ⟨q, body, heq, hq⟩ := exists_quotedChars s.toList
    rw [heq, List.cons_append] at hread ⊢
    rcases hq with rfl | rfl <;> simp [value, hread]

theorem word_append (hword : ∀ c ∈ cs, isWordChar c = true) (rest : List Char) :
    word (cs ++ '\n' :: rest) = (cs, '\n' :: rest) := by
  unfold word
  rw [span_append hword (by decide)]
  simp

theorem writes_bool (b : Bool) : Writes (if b then "true" else "false").toList (bool b) where
  dense rest := by cases b <;> rfl
  oneEnd := by cases b <;> decide
  read fuel room rest := by
    have hchars : ∀ c ∈ (if b then "true" else "false").toList, isWordChar c = true := by
      cases b <;> exact List.all_eq_true.mp (by decide)
    have hword := word_append hchars rest
    cases b <;> simp [value] at hword ⊢ <;> simp [hword, ofWord?]

/-! ## Keys -/

/-- A key that needs no quotes. -/
structure IsBare (k : String) : Prop where
  filled : k ≠ ""
  chars : k.toList.all isKeyChar = true

theorem IsBare.forall_chars (hk : IsBare k) : ∀ c ∈ k.toList, isKeyChar c = true := List.all_eq_true.mp hk.chars

theorem IsBare.toList (hk : IsBare k) : ∃ c cs, k.toList = c :: cs ∧ isKeyChar c = true := by
  have hchars := hk.forall_chars
  cases hcs : k.toList with
  | nil => exact absurd (String.toList_eq_nil_iff.mp hcs) hk.filled
  | cons c cs => exact ⟨c, cs, rfl, hchars c (by simp [hcs])⟩

/-- An entry as it is written and as it is read. -/
structure Written where
  key : String
  chars : List Char
  value : Toml
  bare : IsBare key
  writes : Writes chars value

namespace Written

def line (w : Written) : List Char := w.key.toList ++ [' ', '=', ' '] ++ w.chars ++ ['\n']

def entry (w : Written) : String × Toml := (w.key, w.value)

end Written

variable {w : Written} {ws : List Written} {entries : Entries}

end Toml

/-! ## Settings -/

namespace Cli.Settings

open Toml (Written writes_quoted writes_bool)

/-- The entries that are written for settings. -/
def entries (s : Settings) : List Written :=
  (s.interface.map fun path => ⟨"abi_path", _, _, ⟨by decide, by decide⟩, writes_quoted path⟩).toList ++
    [⟨"json", _, _, ⟨by decide, by decide⟩, writes_bool s.json⟩,
      ⟨"log_level", _, _, ⟨by decide, by decide⟩, writes_quoted s.logLevel⟩]

end Cli.Settings

end Calldata
