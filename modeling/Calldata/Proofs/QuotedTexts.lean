import Calldata.Proofs.Spelling
import Calldata.Toml.Quoted

/-!
# Quoted texts are read back

In whatever way a text was quoted, the reader finds the same text between the quotes, and stops
behind them.
-/

namespace Calldata.Toml

variable {c q : Char} {cs rest : List Char} {n k : Nat}

/-- What a reader gives with more characters in front of the text. -/
def withChars (cs : List Char) (result : Option (List Char × List Char)) : Option (List Char × List Char) :=
  result.map fun found => (cs ++ found.1, found.2)

/-! ## Escapes -/

theorem coded?_digits (h : c.toNat < 128) :
    coded? ['0', '0', upperHexDigit (c.toNat / 16), upperHexDigit (c.toNat % 16)] = some c := by
  have hall : ∀ n < 128, coded? ['0', '0', upperHexDigit (n / 16), upperHexDigit (n % 16)] = some (Char.ofNat n) := by
    decide +kernel
  rw [hall c.toNat h, Char.ofNat_toNat]

theorem lt_of_needsCode (h : needsCode c = true) : c.toNat < 128 := by
  simp only [needsCode, Bool.or_eq_true, Bool.and_eq_true, decide_eq_true_eq] at h
  omega

theorem isPrintable_of_not_needsCode (h : needsCode c = false) (hbreak : c ≠ '\n') : isPrintable c = true := by
  by_cases htab : c = '\t'
  · simp [isPrintable, htab]
  · simp [needsCode, htab, hbreak] at h
    simp [isPrintable, htab]
    omega

theorem escape_cases (block : Bool) (hquote : c ≠ '"') :
    (∃ e, escape block c = ['\\', e] ∧ letter? e = some c ∧ isGap e = false) ∨
      (escape block c = ['\\', 'u', '0', '0', upperHexDigit (c.toNat / 16), upperHexDigit (c.toNat % 16)] ∧
        c.toNat < 128) ∨
      (escape block c = [c] ∧ c ≠ '\\' ∧ (isPrintable c = true ∨ (block = true ∧ c = '\n'))) := by
  unfold escape
  split
  · exact .inl ⟨'\\', rfl, rfl, rfl⟩
  · exact .inl ⟨'t', rfl, rfl, rfl⟩
  · cases block with
    | false => exact .inl ⟨'n', rfl, rfl, rfl⟩
    | true => exact .inr (.inr ⟨rfl, by decide, .inr ⟨rfl, rfl⟩⟩)
  · exact .inl ⟨'r', rfl, rfl, rfl⟩
  · rename_i hslash _ hbreak _
    have hchar {n : Nat} (h : c.toNat = n) : Char.ofNat n = c := by rw [← h, Char.ofNat_toNat]
    split
    · exact .inl ⟨'b', rfl, congrArg some (hchar ‹_›), rfl⟩
    split
    · exact .inl ⟨'f', rfl, congrArg some (hchar ‹_›), rfl⟩
    split
    · rename_i hcode
      exact .inr (.inl ⟨rfl, lt_of_needsCode hcode⟩)
    · rename_i hcode
      refine .inr (.inr ⟨rfl, hslash, .inl (isPrintable_of_not_needsCode (by simpa using hcode) hbreak)⟩)

theorem ne_of_letter {e : Char} (h : letter? e = some c) : e ≠ 'u' ∧ e ≠ 'U' := by
  constructor <;> rintro rfl <;> simp [letter?] at h

/-! ## Between double quotes -/

theorem basic_escape (hquote : c ≠ '"') (rest : List Char) :
    basic (escape false c ++ rest) = withChars [c] (basic rest) := by
  rcases escape_cases false hquote with ⟨e, heq, hletter, -⟩ | ⟨heq, hcode⟩ | ⟨heq, hslash, hprint⟩
  · obtain ⟨hu, hU⟩ := ne_of_letter hletter
    rw [heq, List.cons_append, List.singleton_append,
      basic.eq_5 e rest (fun _ _ _ _ _ h _ => hu h) (fun _ _ _ _ _ _ _ _ _ h _ => hU h), hletter]
    rfl
  · rw [heq]
    simp only [List.cons_append, List.nil_append]
    rw [basic, coded?_digits hcode]
    rfl
  · have hprint : isPrintable c = true := by simpa using hprint
    rw [heq, List.singleton_append, basic.eq_6 c rest hquote (fun _ _ _ _ _ h _ => hslash h)
      (fun _ _ _ _ _ _ _ _ _ h _ => hslash h) (fun _ _ h _ => hslash h)]
    simp [hprint, hslash]
    rfl

theorem basic_escapeAll (cs rest : List Char) : basic (escapeAll false n cs ++ '"' :: rest) = some (cs, rest) := by
  induction cs generalizing n with
  | nil => rfl
  | cons c cs ih =>
    by_cases hquote : c = '"'
    · subst hquote
      rw [escapeAll, if_pos rfl]
      simp only [Bool.false_and, Bool.false_eq_true, if_false, List.cons_append]
      rw [basic.eq_5 _ _ (by simp) (by simp), ih]
      rfl
    · rw [escapeAll, if_neg hquote, List.append_assoc, basic_escape hquote, ih]
      rfl

/-! ## Between single quotes -/

theorem literal_append (hprint : ∀ c ∈ cs, isPrintable c = true) (hquote : '\'' ∉ cs) (rest : List Char) :
    literal (cs ++ '\'' :: rest) = some (cs, rest) := by
  induction cs with
  | nil => rfl
  | cons c cs ih =>
    rw [List.forall_mem_cons] at hprint
    rw [List.mem_cons, not_or] at hquote
    rw [List.cons_append, literal.eq_3 _ _ (Ne.symm hquote.1), if_pos hprint.1, ih hprint.2 hquote.2]
    rfl

/-! ## Blocks -/

theorem withChars_append (xs ys : List Char) (result : Option (List Char × List Char)) :
    withChars xs (withChars ys result) = withChars (xs ++ ys) result := by
  cases result <;> simp [withChars]

/-- A reader of blocks with the quote `q`: three quotes close a block, and fewer belong to it. -/
structure ReadsBlock (q : Char) (read : List Char → Option (List Char × List Char)) : Prop where
  quote : q ≠ '\n'
  close (rest : List Char) : read (q :: q :: q :: rest) = some (closing q rest)
  keep (rest : List Char) (h : ∀ more, rest ≠ q :: q :: more) : read (q :: rest) = withChars [q] (read rest)

variable {read : List Char → Option (List Char × List Char)}

theorem ReadsBlock.quotes (hread : ReadsBlock q read) (hk : k ≤ maxRun) (hrest : rest.head? ≠ some q) :
    read (List.replicate k q ++ rest) = withChars (List.replicate k q) (read rest) := by
  induction k with
  | zero => cases h : read rest <;> simp [withChars, h]
  | succ k ih =>
    have hfew : ∀ more, List.replicate k q ++ rest ≠ q :: q :: more := by
      rintro more heq
      unfold maxRun at hk
      rcases (by omega : k = 0 ∨ k = 1) with rfl | rfl
      · exact hrest (by simpa using congrArg List.head? heq)
      · exact hrest (by simpa using congrArg (List.head? ∘ List.tail) heq)
    rw [List.replicate_succ, List.cons_append, hread.keep _ hfew, ih (by omega), withChars_append, List.singleton_append]

theorem closing_quotes (hq : q ≠ '\n') (hk : k ≤ maxRun) (rest : List Char) :
    closing q (List.replicate k q ++ '\n' :: rest) = (List.replicate k q, '\n' :: rest) := by
  unfold maxRun at hk
  rcases (by omega : k = 0 ∨ k = 1 ∨ k = 2) with rfl | rfl | rfl
  · cases rest <;> simp [closing, Ne.symm hq]
  · simp [closing, Ne.symm hq]
  · simp [closing]

theorem ReadsBlock.last (hread : ReadsBlock q read) (hk : k ≤ maxRun) (rest : List Char) :
    read (List.replicate k q ++ q :: q :: q :: '\n' :: rest) = some (List.replicate k q, '\n' :: rest) := by
  -- Quotes of the text and those behind it are not told apart but counted.
  have hcomm : List.replicate k q ++ q :: q :: q :: '\n' :: rest =
      q :: q :: q :: (List.replicate k q ++ '\n' :: rest) := by
    induction k with
    | zero => rfl
    | succ k ih => rw [List.replicate_succ, List.cons_append, List.cons_append, ih (by omega)]
  rw [hcomm, hread.close, closing_quotes hread.quote hk]

/-! ### In double quotes -/

theorem basicBlock_char (h : isPrintable c = true ∨ c = '\n') (hslash : c ≠ '\\')
    (hquotes : ∀ more, c = '"' → rest = '"' :: '"' :: more → False) :
    basicBlock false (c :: rest) = withChars [c] (basicBlock false rest) := by
  rw [basicBlock.eq_6 false c rest hquotes (fun _ _ _ _ _ h _ => hslash h)
      (fun _ _ _ _ _ _ _ _ _ h _ => hslash h) (fun _ _ h _ => hslash h)]
  have hkept : (isPrintable c || decide (c = '\n')) = true := by simpa using h
  simp [hkept, hslash]
  rfl

theorem basicBlock_escape (hquote : c ≠ '"') (rest : List Char) :
    basicBlock false (escape true c ++ rest) = withChars [c] (basicBlock false rest) := by
  rcases escape_cases true hquote with ⟨e, heq, hletter, hgap⟩ | ⟨heq, hcode⟩ | ⟨heq, hslash, hprint⟩
  · obtain ⟨hu, hU⟩ := ne_of_letter hletter
    rw [heq, List.cons_append, List.singleton_append,
      basicBlock.eq_5 _ e rest (fun _ _ _ _ _ h _ => hu h) (fun _ _ _ _ _ _ _ _ _ h _ => hU h), hletter, hgap]
    rfl
  · rw [heq]
    simp only [List.cons_append, List.nil_append]
    rw [basicBlock, coded?_digits hcode]
    rfl
  · rw [heq, List.singleton_append]
    exact basicBlock_char (hprint.imp_right And.right) hslash fun _ h _ => hquote h

theorem readsBlock_basic : ReadsBlock '"' (basicBlock false) where
  quote := by decide
  close rest := by rw [basicBlock]
  keep rest h := basicBlock_char (.inl (by decide)) (by decide) fun more _ heq => h more heq

theorem head?_escape (block : Bool) (hquote : c ≠ '"') (rest : List Char) :
    (escape block c ++ rest).head? ≠ some '"' := by
  rcases escape_cases block hquote with ⟨e, heq, -⟩ | ⟨heq, -⟩ | ⟨heq, -⟩ <;> simp [heq, hquote]

theorem basicBlock_escapeAll (hk : k ≤ maxRun) (cs rest : List Char) :
    basicBlock false (List.replicate k '"' ++ (escapeAll true k cs ++ '"' :: '"' :: '"' :: '\n' :: rest)) =
      some (List.replicate k '"' ++ cs, '\n' :: rest) := by
  -- The reader cannot pass quotes before it is known what follows, so the induction keeps them in front.
  induction cs generalizing k with
  | nil =>
    rw [escapeAll, List.nil_append, List.append_nil]
    exact readsBlock_basic.last hk rest
  | cons c cs ih =>
    have hnext := ih (k := 0) (by decide)
    simp only [List.replicate_zero, List.nil_append] at hnext
    by_cases hquote : c = '"'
    · subst hquote
      by_cases hroom : k < maxRun
      · rw [escapeAll, if_pos rfl, if_pos (by simp [hroom])]
        have hmore := ih (k := k + 1) hroom
        simpa [List.replicate_succ'] using hmore
      · rw [escapeAll, if_pos rfl, if_neg (by simp [hroom]), readsBlock_basic.quotes hk (by simp)]
        simp only [List.cons_append]
        rw [basicBlock.eq_5 _ _ _ (by simp) (by simp), hnext]
        rfl
    · rw [escapeAll, if_neg hquote, List.append_assoc, readsBlock_basic.quotes hk (head?_escape true hquote _),
        basicBlock_escape hquote, hnext]
      rfl

/-! ### In single quotes -/

theorem literalBlock_char (h : isPrintable c = true ∨ c = '\n')
    (hquotes : ∀ more, c = '\'' → rest = '\'' :: '\'' :: more → False) :
    literalBlock (c :: rest) = withChars [c] (literalBlock rest) := by
  have hkept : (isPrintable c || decide (c = '\n')) = true := by simpa using h
  rw [literalBlock.eq_3 c rest hquotes, if_pos hkept]
  rfl

theorem readsBlock_literal : ReadsBlock '\'' literalBlock where
  quote := by decide
  close rest := by rw [literalBlock]
  keep rest h := literalBlock_char (.inl (by decide)) fun more _ heq => h more heq

theorem le_longestRun (q : Char) (k : Nat) (cs : List Char) : k ≤ longestRun q k cs := by
  induction cs generalizing k with
  | nil => exact Nat.le_refl k
  | cons c cs ih =>
    rw [longestRun]
    split
    · exact Nat.le_of_succ_le (ih (k + 1))
    · exact Nat.le_max_left k _

theorem literalBlock_append (hrun : longestRun '\'' k cs ≤ maxRun)
    (hprint : ∀ c ∈ cs, isPrintable c = true ∨ c = '\n') (rest : List Char) :
    literalBlock (List.replicate k '\'' ++ (cs ++ '\'' :: '\'' :: '\'' :: '\n' :: rest)) =
      some (List.replicate k '\'' ++ cs, '\n' :: rest) := by
  have hk := Nat.le_trans (le_longestRun '\'' k cs) hrun
  induction cs generalizing k with
  | nil =>
    rw [List.nil_append, List.append_nil]
    exact readsBlock_literal.last hk rest
  | cons c cs ih =>
    rw [List.forall_mem_cons] at hprint
    rw [longestRun] at hrun
    by_cases hquote : c = '\''
    · subst hquote
      rw [if_pos rfl] at hrun
      have hmore := ih hrun hprint.2 (Nat.le_trans (le_longestRun _ _ _) hrun)
      simpa [List.replicate_succ'] using hmore
    · rw [if_neg hquote] at hrun
      have hnext := ih (Nat.le_trans (Nat.le_max_right k _) hrun) hprint.2 (Nat.zero_le _)
      simp only [List.replicate_zero, List.nil_append] at hnext
      rw [readsBlock_literal.quotes hk (by simp [hquote]), List.cons_append,
        literalBlock_char hprint.1 fun _ h _ => hquote h, hnext]
      rfl

/-! ## Whole texts -/

theorem not_needsCode_of_quotingOf (h : quotingOf cs = .literal ∨ quotingOf cs = .literalBlock) :
    ∀ c ∈ cs, needsCode c = false := by
  have hcoded : cs.any needsCode = false := by
    by_contra hcoded
    have hcoded : cs.any needsCode = true := by simpa using hcoded
    unfold quotingOf at h
    simp only [hcoded] at h
    grind
  simpa using List.any_eq_false.mp hcoded

theorem of_quotingOf_literal (h : quotingOf cs = .literal) : '\n' ∉ cs ∧ '\'' ∉ cs := by
  unfold quotingOf at h
  simp only [] at h
  split at h
  · simp at h
  split at h
  · simp_all
  · grind

theorem of_quotingOf_literalBlock (h : quotingOf cs = .literalBlock) : longestRun '\'' 0 cs ≤ maxRun := by
  unfold quotingOf at h
  grind

theorem blockStart_body (hq : q ≠ '\n') (cs rest : List Char) :
    blockStart ((if cs.contains '\n' then '\n' :: cs else cs) ++ q :: rest) = cs ++ q :: rest := by
  split
  · rfl
  · rename_i hbreak
    cases cs with
    | nil => simp [blockStart, hq]
    | cons c cs =>
      have hc : c ≠ '\n' := by
        rintro rfl
        simp at hbreak
      simp [blockStart, hc]

theorem quotedText_basic (h : ∀ more, rest ≠ '"' :: '"' :: more) : quotedText ('"' :: rest) = basic rest := by
  rw [quotedText]
  exact h

theorem quotedText_literal (h : ∀ more, rest ≠ '\'' :: '\'' :: more) : quotedText ('\'' :: rest) = literal rest := by
  rw [quotedText]
  exact h

theorem quotedText_escapeAll (cs rest : List Char) :
    quotedText ('"' :: (escapeAll false 0 cs ++ '"' :: '\n' :: rest)) = some (cs, '\n' :: rest) := by
  rw [quotedText_basic, basic_escapeAll]
  -- A line break follows, so an empty text in quotes is not taken for the start of a block.
  intro more heq
  cases cs with
  | nil => simp [escapeAll] at heq
  | cons c cs =>
    by_cases hquote : c = '"'
    · simp [escapeAll, hquote] at heq
    · rw [escapeAll, if_neg hquote, List.append_assoc] at heq
      exact head?_escape false hquote _ (congrArg List.head? heq)

theorem quotedText_append (hprint : ∀ c ∈ cs, isPrintable c = true) (hquote : '\'' ∉ cs) (rest : List Char) :
    quotedText ('\'' :: (cs ++ '\'' :: '\n' :: rest)) = some (cs, '\n' :: rest) := by
  rw [quotedText_literal, literal_append hprint hquote]
  intro more heq
  cases cs with
  | nil => simp at heq
  | cons c cs => exact hquote (by simp_all)

theorem quotedText_basicBlock (body rest : List Char) :
    quotedText (blockOf ['"', '"', '"'] body ++ rest) = basicBlock false (body ++ '"' :: '"' :: '"' :: rest) := by
  unfold blockOf
  simp only [List.append_assoc, List.cons_append, List.nil_append]
  rw [quotedText, blockStart_body (by decide)]

theorem quotedText_literalBlock (body rest : List Char) :
    quotedText (blockOf ['\'', '\'', '\''] body ++ rest) = literalBlock (body ++ '\'' :: '\'' :: '\'' :: rest) := by
  unfold blockOf
  simp only [List.append_assoc, List.cons_append, List.nil_append]
  rw [quotedText, blockStart_body (by decide)]

/-- A quoted text in front of the end of a line is read back, in whatever way it was quoted. -/
theorem quotedText_quotedChars (cs rest : List Char) :
    quotedText (quotedChars cs ++ '\n' :: rest) = some (cs, '\n' :: rest) := by
  unfold quotedChars
  split
  · simpa using quotedText_escapeAll cs rest
  · rename_i hquoting
    obtain ⟨hbreak, hquote⟩ := of_quotingOf_literal hquoting
    have hprint : ∀ c ∈ cs, isPrintable c = true := fun c hc =>
      isPrintable_of_not_needsCode (not_needsCode_of_quotingOf (.inl hquoting) c hc) (ne_of_mem_of_not_mem hc hbreak)
    simpa using quotedText_append hprint hquote rest
  · rw [quotedText_basicBlock]
    simpa using basicBlock_escapeAll (k := 0) (by decide) cs rest
  · rename_i hquoting
    have hprint : ∀ c ∈ cs, isPrintable c = true ∨ c = '\n' := fun c hc =>
      (Decidable.em (c = '\n')).symm.imp_left
        (isPrintable_of_not_needsCode (not_needsCode_of_quotingOf (.inr hquoting) c hc))
    rw [quotedText_literalBlock]
    simpa using literalBlock_append (of_quotingOf_literalBlock hquoting) hprint rest

/-! ## Line ends -/

theorem return_notMem_escape (block : Bool) (hquote : c ≠ '"') : '\r' ∉ escape block c := by
  rcases escape_cases block hquote with ⟨e, heq, hletter, -⟩ | ⟨heq, hcode⟩ | ⟨heq, -, hprint⟩
  · have he : '\r' ≠ e := by
      rintro rfl
      simp [letter?] at hletter
    simp [heq, he]
  · have hdigits : ∀ n < 128, '\r' ≠ upperHexDigit (n / 16) ∧ '\r' ≠ upperHexDigit (n % 16) := by decide +kernel
    simp [heq, hdigits c.toNat hcode]
  · have hc : '\r' ≠ c := by
      rintro rfl
      rcases hprint with h | ⟨-, h⟩ <;> simp [isPrintable] at h
    simp [heq, hc]

theorem return_notMem_escapeAll (block : Bool) (n : Nat) (cs : List Char) : '\r' ∉ escapeAll block n cs := by
  induction cs generalizing n with
  | nil => simp [escapeAll]
  | cons c cs ih =>
    rw [escapeAll]
    split
    · split <;> simp [ih]
    · rename_i hquote
      simp [return_notMem_escape block hquote, ih]

theorem return_notMem_quotedChars (cs : List Char) : '\r' ∉ quotedChars cs := by
  unfold quotedChars blockOf
  split
  · simp [return_notMem_escapeAll]
  · rename_i hquoting
    have hcs : '\r' ∉ cs := fun h =>
      absurd (not_needsCode_of_quotingOf (.inl hquoting) _ h) (by decide)
    simp [hcs]
  · split <;> simp [return_notMem_escapeAll]
  · rename_i hquoting
    have hcs : '\r' ∉ cs := fun h =>
      absurd (not_needsCode_of_quotingOf (.inr hquoting) _ h) (by decide)
    split <;> simp [hcs]

theorem exists_quotedChars (cs : List Char) :
    ∃ q body, quotedChars cs = q :: body ∧ (q = '"' ∨ q = '\'') := by
  unfold quotedChars blockOf
  split
  · exact ⟨'"', _, rfl, .inl rfl⟩
  · exact ⟨'\'', _, rfl, .inr rfl⟩
  · exact ⟨'"', _, rfl, .inl rfl⟩
  · exact ⟨'\'', _, rfl, .inr rfl⟩

end Calldata.Toml
