import Calldata.Proofs.Descriptions
import Calldata.Proofs.Spelling
import Mathlib.Data.List.Induction
import Mathlib.Data.List.TakeWhile

/-!
# The grammar of type names

A type name is a word, or a type name with a bracket pair behind it, and blanks may stand around
every type name in it. The parser gives a tree exactly for the texts that this grammar derives, and
refuses all others.
-/

namespace Calldata

variable {cs front back before after digits name inner : List Char} {c : Char} {n : Nat}

/-! ## The grammar -/

/-- Decimal digits and the number that they spell. Zeros may lead. -/
inductive Numeral : List Char → Nat → Prop where
  | nil : Numeral [] 0
  | digit {cs : List Char} {n d : Nat} (front : Numeral cs n) (hd : d < 10) :
      Numeral (cs ++ [digitChar d]) (10 * n + d)

def Blank (cs : List Char) : Prop := ∀ c ∈ cs, Text.isBlank c = true

def bracketPair (inner : List Char) : List Char := '[' :: (inner ++ [']'])

namespace ParamType

variable {t elem : ParamType}

/-- The words that name a type. A width may follow the words for integers. -/
inductive Word : List Char → ParamType → Prop where
  | bool : Word "bool".toList bool
  | address : Word "address".toList (identifier .address)
  | hash : Word "hash".toList (identifier .hash)
  | bytes32 : Word "bytes32".toList bytes32
  | token : Word "tokenStandard".toList (identifier .token)
  | bytes : Word "bytes".toList bytes
  | string : Word "string".toList string
  | function : Word "function".toList function
  | int : Word "int".toList (int 256)
  | uint : Word "uint".toList (uint 256)
  | intOf {digits : List Char} {bits : Nat} (spelled : Numeral digits bits) (written : digits ≠ [])
      (width : IsWidth bits) : Word ("int".toList ++ digits) (int bits)
  | uintOf {digits : List Char} {bits : Nat} (spelled : Numeral digits bits) (written : digits ≠ [])
      (width : IsWidth bits) : Word ("uint".toList ++ digits) (uint bits)

/-- The texts that name a type. The last bracket pair is the outermost array. -/
inductive Derives : List Char → ParamType → Prop where
  | word {before cs after : List Char} {t : ParamType} (hbefore : Blank before) (word : Word cs t)
      (hafter : Blank after) : Derives (before ++ cs ++ after) t
  | array {before cs after : List Char} {elem : ParamType} (hbefore : Blank before)
      (items : Derives cs elem) (hafter : Blank after) :
      Derives (before ++ (cs ++ bracketPair []) ++ after) (array elem)
  | fixedArray {before cs digits after : List Char} {elem : ParamType} {n : Nat}
      (hbefore : Blank before) (items : Derives cs elem) (spelled : Numeral digits n)
      (written : digits ≠ []) (length : IsArrayLength n) (hafter : Blank after) :
      Derives (before ++ (cs ++ bracketPair digits) ++ after) (fixedArray elem n)

end ParamType

/-! ## Numerals -/

theorem exists_digit (h : isDigit c = true) : ∃ d < 10, c = digitChar d := by
  obtain ⟨hlow, hhigh⟩ := isDigit_iff.mp h
  refine ⟨c.toNat - 48, by omega, ?_⟩
  unfold digitChar
  rw [Nat.add_sub_cancel' hlow, Char.ofNat_toNat]

theorem numeral_iff : Numeral cs n ↔ cs.all isDigit = true ∧ digitsValue cs = n := by
  constructor
  · intro h
    induction h with
    | nil => exact ⟨rfl, rfl⟩
    | digit front hd ih =>
      rw [digitsValue_append_singleton, toNat_digitChar hd, ih.2]
      refine ⟨?_, by omega⟩
      simp [List.all_append, ih.1, isDigit_digitChar hd]
  · rintro ⟨hdigits, rfl⟩
    induction cs using List.reverseRecOn with
    | nil => exact .nil
    | append_singleton cs c ih =>
      simp only [List.all_append, List.all_cons, List.all_nil, Bool.and_true, Bool.and_eq_true] at hdigits
      obtain ⟨d, hd, rfl⟩ := exists_digit hdigits.2
      rw [digitsValue_append_singleton, toNat_digitChar hd, Nat.add_sub_cancel_left]
      exact .digit (ih hdigits.1) hd

theorem numeral?_eq_some_iff : numeral? cs = some n ↔ cs ≠ [] ∧ Numeral cs n := by
  unfold numeral?
  rw [numeral_iff]
  by_cases h : cs ≠ [] ∧ cs.all isDigit
  · simp [h]
  · rw [if_neg h]
    simp only [reduceCtorEq, false_iff]
    exact fun hn => h ⟨hn.1, hn.2.1⟩

theorem numeral_decimalDigits (n : Nat) : Numeral (decimalDigits n) n :=
  numeral_iff.mpr ⟨all_isDigit_decimalDigits n, digitsValue_decimalDigits n⟩

theorem Numeral.notMem (h : Numeral cs n) (hc : isDigit c = false) : c ∉ cs := by
  intro hmem
  have hdigit := List.all_eq_true.mp (numeral_iff.mp h).1 c hmem
  simp [hc] at hdigit

/-! ## Blanks -/

namespace Text

theorem exists_trim (cs : List Char) :
    ∃ before after, Blank before ∧ Blank after ∧ cs = before ++ trim cs ++ after := by
  refine ⟨cs.takeWhile isBlank, ((cs.dropWhile isBlank).reverse.takeWhile isBlank).reverse, ?_, ?_, ?_⟩
  · exact fun c hc => List.mem_takeWhile_imp hc
  · exact fun c hc => List.mem_takeWhile_imp (List.mem_reverse.mp hc)
  · unfold trim
    rw [List.append_assoc, ← List.reverse_append, List.takeWhile_append_dropWhile, List.reverse_reverse,
      List.takeWhile_append_dropWhile]

theorem trim_append_left (h : Blank before) : trim (before ++ cs) = trim cs := by
  unfold trim
  rw [List.dropWhile_append_of_pos h]

theorem trim_append_right (h : Blank after) : trim (cs ++ after) = trim cs := by
  unfold trim
  rw [List.dropWhile_append]
  split
  · rename_i hblank
    rw [List.isEmpty_iff.mp hblank, List.dropWhile_eq_nil_iff.mpr h]
  · rw [List.reverse_append, List.dropWhile_append_of_pos fun c hc => h c (List.mem_reverse.mp hc)]

theorem trim_dropWhile (cs : List Char) : trim (cs.dropWhile isBlank) = trim cs := by
  conv => rhs; rw [← List.takeWhile_append_dropWhile (p := isBlank) (l := cs)]
  exact (trim_append_left fun c hc => List.mem_takeWhile_imp hc).symm

theorem trim_enclosed {opening closing : Char} (hopen : isBlank opening = false) (hclose : isBlank closing = false) :
    trim (cs ++ opening :: (inner ++ [closing])) = cs.dropWhile isBlank ++ opening :: (inner ++ [closing]) := by
  have hdrop : (cs ++ opening :: (inner ++ [closing])).dropWhile isBlank =
      cs.dropWhile isBlank ++ opening :: (inner ++ [closing]) := by
    rw [List.dropWhile_append, List.dropWhile_cons_of_neg (by simp [hopen])]
    split
    · rename_i hblank
      rw [List.isEmpty_iff.mp hblank, List.nil_append]
    · rfl
  unfold trim
  rw [hdrop]
  simp [List.dropWhile_cons_of_neg, hclose]

theorem trim_bracketed (cs inner : List Char) :
    trim (cs ++ bracketPair inner) = cs.dropWhile isBlank ++ bracketPair inner :=
  trim_enclosed (by decide) (by decide)

end Text

namespace ParamType

variable {t elem : ParamType}

/-! ## The last bracket -/

theorem splitLast_of_notMem (h : c ∉ cs) : splitLast c cs = none := by
  induction cs with
  | nil => rfl
  | cons a rest ih =>
    rw [List.mem_cons, not_or] at h
    rw [splitLast, ih h.2, if_neg (Ne.symm h.1)]

theorem splitLast_append (front : List Char) (h : c ∉ back) :
    splitLast c (front ++ c :: back) = some (front, back) := by
  induction front with
  | nil => rw [List.nil_append, splitLast, splitLast_of_notMem h, if_pos rfl]
  | cons a front ih => rw [List.cons_append, splitLast, ih]

theorem closed?_eq_some_iff : closed? cs = some inner ↔ cs = inner ++ [']'] := by
  unfold closed?
  constructor
  · intro h
    split at h
    · rename_i hlast
      obtain ⟨front, rfl⟩ := List.getLast?_eq_some_iff.mp hlast
      simpa using h
    · simp at h
  · rintro rfl
    simp

/-! ## Words -/

variable {bits : Nat}

theorem width_ok_iff : width name digits = .ok bits ↔
    (digits = [] ∧ bits = 256) ∨ (digits ≠ [] ∧ Numeral digits bits ∧ IsWidth bits) := by
  rw [← and_assoc, ← numeral?_eq_some_iff]
  unfold width
  by_cases hempty : digits = []
  · subst hempty
    simp [numeral?, eq_comm]
  rw [if_neg hempty]
  cases numeral? digits with
  | none => simp [hempty]
  | some m =>
    by_cases hm : IsWidth m
    · simp only [hm, if_true, Except.ok.injEq, hempty, false_and, Option.some.injEq, false_or]
      exact ⟨fun h => ⟨h, h ▸ hm⟩, And.left⟩
    · simp only [hm, if_false, reduceCtorEq, hempty, false_and, Option.some.injEq, false_or, false_iff]
      rintro ⟨rfl, hbits⟩
      exact hm hbits

theorem behind?_eq_some_iff {rest : List Char} : behind? front cs = some rest ↔ cs = front ++ rest := by
  unfold behind?
  constructor
  · intro h
    split at h
    · rename_i hfront
      obtain ⟨rest, rfl⟩ := List.isPrefixOf_iff_prefix.mp hfront
      simpa using h
    · simp at h
  · rintro rfl
    simp

theorem behind?_append (front rest : List Char) : behind? front (front ++ rest) = some rest :=
  behind?_eq_some_iff.mpr rfl

theorem word_of_keyword (h : keyword? name = some t) : Word name t := by
  have hname := List.find?_some h
  have hmem := List.mem_of_find?_eq_some h
  simp only [decide_eq_true_eq] at hname
  subst hname
  simp only [List.mem_cons, List.not_mem_nil, or_false] at hmem
  rcases hmem with rfl | rfl | rfl | rfl | rfl | rfl | rfl | rfl
  · exact .bool
  · exact .address
  · exact .hash
  · exact .bytes32
  · exact .token
  · exact .bytes
  · exact .string
  · exact .function

theorem word_of_ok (h : ofWord name = .ok t) : Word name t := by
  unfold ofWord at h
  split at h
  · rename_i u hu
    exact Except.ok.inj h ▸ word_of_keyword hu
  split at h
  · rename_i digits hdigits
    obtain ⟨bits, hbits, rfl⟩ := map_ok_iff.mp h
    obtain rfl := behind?_eq_some_iff.mp hdigits
    rcases width_ok_iff.mp hbits with ⟨rfl, rfl⟩ | ⟨hne, hspelled, hwidth⟩
    · exact .uint
    · exact .uintOf hspelled hne hwidth
  · rename_i digits hdigits
    obtain ⟨bits, hbits, rfl⟩ := map_ok_iff.mp h
    obtain rfl := behind?_eq_some_iff.mp hdigits
    rcases width_ok_iff.mp hbits with ⟨rfl, rfl⟩ | ⟨hne, hspelled, hwidth⟩
    · exact .int
    · exact .intOf hspelled hne hwidth
  · simp at h

theorem ofWord_keyword (h : keyword? name = some t) : ofWord name = .ok t := by
  unfold ofWord
  rw [h]

theorem keyword?_eq_none (hc : c = 'i' ∨ c = 'u') (h : name.head? = some c) : keyword? name = none := by
  rw [keyword?, List.find?_eq_none]
  intro t ht hname
  -- No keyword begins as the words for integers do.
  have hhead : t.nameChars.head? ≠ some c := by
    simp only [List.mem_cons, List.not_mem_nil, or_false] at ht
    rcases ht with rfl | rfl | rfl | rfl | rfl | rfl | rfl | rfl <;> rcases hc with rfl | rfl <;> decide
  rw [of_decide_eq_true hname] at hhead
  exact hhead h

theorem ofWord_uint (h : width ("uint".toList ++ digits) digits = .ok bits) :
    ofWord ("uint".toList ++ digits) = .ok (uint bits) := by
  have hkeyword : keyword? ("uint".toList ++ digits) = none := keyword?_eq_none (.inr rfl) rfl
  unfold ofWord
  simp only [hkeyword, behind?_append]
  exact map_ok_iff.mpr ⟨bits, h, rfl⟩

theorem ofWord_int (h : width ("int".toList ++ digits) digits = .ok bits) :
    ofWord ("int".toList ++ digits) = .ok (int bits) := by
  have hkeyword : keyword? ("int".toList ++ digits) = none := keyword?_eq_none (.inl rfl) rfl
  have hunsigned : behind? "uint".toList ("int".toList ++ digits) = none := by
    simp [behind?]
  unfold ofWord
  simp only [hkeyword, behind?_append, hunsigned]
  exact map_ok_iff.mpr ⟨bits, h, rfl⟩

theorem ok_of_word (h : Word name t) : ofWord name = .ok t := by
  cases h with
  | bool | address | hash | bytes32 | token | bytes | string | function => exact ofWord_keyword (by decide)
  | int => exact ofWord_int (show width ("int".toList ++ []) [] = .ok 256 from width_ok_iff.mpr (.inl ⟨rfl, rfl⟩))
  | uint => exact ofWord_uint (show width ("uint".toList ++ []) [] = .ok 256 from width_ok_iff.mpr (.inl ⟨rfl, rfl⟩))
  | intOf spelled written hwidth => exact ofWord_int (width_ok_iff.mpr (.inr ⟨written, spelled, hwidth⟩))
  | uintOf spelled written hwidth => exact ofWord_uint (width_ok_iff.mpr (.inr ⟨written, spelled, hwidth⟩))

theorem ofWord_ok_iff : ofWord name = .ok t ↔ Word name t := ⟨word_of_ok, ok_of_word⟩

theorem isAlphanum_of_isDigit (h : isDigit c = true) : c.isAlphanum = true := by
  obtain ⟨d, hd, rfl⟩ := exists_digit h
  revert d
  decide

theorem alphanum_of_word (h : Word name t) : ∀ c ∈ name, c.isAlphanum = true := by
  have hdigits {digits : List Char} {bits : Nat} (spelled : Numeral digits bits) :
      ∀ c ∈ digits, c.isAlphanum = true := by
    intro c hc
    exact isAlphanum_of_isDigit (List.all_eq_true.mp (numeral_iff.mp spelled).1 c hc)
  cases h with
  | bool | address | hash | bytes32 | token | bytes | string | function | int | uint =>
    exact List.all_eq_true.mp (by decide)
  | intOf spelled | uintOf spelled =>
    rw [List.forall_mem_append]
    exact ⟨List.all_eq_true.mp (by decide), hdigits spelled⟩

theorem isPlain_of_isAlphanum (h : c.isAlphanum = true) : IsPlain c := by
  have hrange : 48 ≤ c.toNat ∧ c.toNat ≤ 122 := by
    delta Char.isAlphanum Char.isAlpha Char.isUpper Char.isLower Char.isDigit at h
    simp only [Bool.or_eq_true, Bool.and_eq_true, decide_eq_true_eq, ge_iff_le, UInt32.le_iff_toNat_le,
      Char.toNat_val] at h
    have hA : 'A'.toNat = 65 := rfl
    have hZ : 'Z'.toNat = 90 := rfl
    have ha : 'a'.toNat = 97 := rfl
    have hz : 'z'.toNat = 122 := rfl
    have h0 : '0'.toNat = 48 := rfl
    have h9 : '9'.toNat = 57 := rfl
    omega
  refine ⟨by omega, ?_⟩
  simp [Text.isBlank]
  omega

/-! ## The characters of names -/

theorem nameChars_int (bits : Nat) : (int bits).nameChars = "int".toList ++ decimalDigits bits := rfl

theorem nameChars_uint (bits : Nat) : (uint bits).nameChars = "uint".toList ++ decimalDigits bits := rfl

theorem nameChars_array (elem : ParamType) : (array elem).nameChars = elem.nameChars ++ bracketPair [] := rfl

theorem nameChars_fixedArray (elem : ParamType) (n : Nat) :
    (fixedArray elem n).nameChars = elem.nameChars ++ bracketPair (decimalDigits n) :=
  List.append_assoc elem.nameChars ('[' :: decimalDigits n) [']']

/-- The word in front of the bracket pairs of a type is all of its name. -/
def IsWord : ParamType → Prop
  | fixedArray _ _ | array _ => False
  | _ => True

theorem alphanum_of_isWord (h : t.IsWord) : ∀ c ∈ t.nameChars, c.isAlphanum = true := by
  have hdigits (n : Nat) : ∀ c ∈ decimalDigits n, c.isAlphanum = true :=
    fun c hc => isAlphanum_of_isDigit (isDigit_of_mem n c hc)
  cases t with
  | int bits | uint bits =>
    unfold nameChars
    rw [List.forall_mem_append]
    exact ⟨List.all_eq_true.mp (by decide), hdigits bits⟩
  | bool | bytes32 | bytes | string | function => exact List.all_eq_true.mp (by decide)
  | identifier k => cases k <;> exact List.all_eq_true.mp (by decide)
  | fixedArray | array => exact h.elim

theorem alphanum_or_bracket (t : ParamType) : ∀ c ∈ t.nameChars, c.isAlphanum = true ∨ c = '[' ∨ c = ']' := by
  have hpair {inner : List Char} (hinner : ∀ c ∈ inner, c.isAlphanum = true) :
      ∀ c ∈ bracketPair inner, c.isAlphanum = true ∨ c = '[' ∨ c = ']' := by
    intro c hc
    simp only [bracketPair, List.mem_cons, List.mem_append, List.not_mem_nil, or_false] at hc
    rcases hc with rfl | hc | rfl
    · exact .inr (.inl rfl)
    · exact .inl (hinner c hc)
    · exact .inr (.inr rfl)
  induction t with
  | array elem ih =>
    rw [nameChars_array, List.forall_mem_append]
    exact ⟨ih, hpair (by simp)⟩
  | fixedArray elem n ih =>
    rw [nameChars_fixedArray, List.forall_mem_append]
    exact ⟨ih, hpair fun c hc => isAlphanum_of_isDigit (isDigit_of_mem n c hc)⟩
  | _ => exact fun c hc => .inl (alphanum_of_isWord (by trivial) c hc)

theorem notMem_nameChars (hchar : c.isAlphanum = false) (hopen : c ≠ '[') (hclose : c ≠ ']') (t : ParamType) :
    c ∉ t.nameChars := by
  intro hc
  rcases alphanum_or_bracket t c hc with h | h | h
  · simp [hchar] at h
  · exact hopen h
  · exact hclose h

/-! ## Bracket pairs -/

theorem bracketed_ok_iff : bracketed name inner elem = .ok t ↔
    (inner = [] ∧ t = array elem) ∨
      ∃ n, inner ≠ [] ∧ Numeral inner n ∧ IsArrayLength n ∧ t = fixedArray elem n := by
  simp only [← and_assoc (a := inner ≠ []), ← numeral?_eq_some_iff]
  unfold bracketed
  by_cases hempty : inner = []
  · subst hempty
    simp [numeral?, eq_comm]
  rw [if_neg hempty]
  cases numeral? inner with
  | none => simp [hempty]
  | some m =>
    by_cases hm : IsArrayLength m
    · simp [hempty, hm, eq_comm]
    · simp [hempty, hm]

/-! ## The parser -/

theorem parseChars_of_notMem (h : '[' ∉ Text.trim cs) (h' : ']' ∉ Text.trim cs) :
    parseChars cs = ofWord (Text.trim cs) := by
  rw [parseChars]
  split
  · rw [if_neg h']
  · rename_i hsplit
    rw [splitLast_of_notMem h] at hsplit
    simp at hsplit

theorem parseChars_of_brackets (htrim : Text.trim cs = front ++ bracketPair inner) (hinner : '[' ∉ inner)
    (hfront : parseChars front = .ok elem) (hne : front ≠ []) :
    parseChars cs = bracketed (front ++ bracketPair inner) inner elem := by
  have hsplit : splitLast '[' (Text.trim cs) = some (front, inner ++ [']']) := by
    rw [htrim]
    exact splitLast_append front (by simp [hinner])
  rw [parseChars]
  split
  · rename_i hnone
    rw [hsplit] at hnone
    simp at hnone
  · rename_i front' back' hsome
    rw [hsplit] at hsome
    obtain ⟨rfl, rfl⟩ := Prod.mk.inj (Option.some.inj hsome)
    rw [closed?_eq_some_iff.mpr rfl]
    simp only [hfront, if_neg hne, htrim]

theorem parseChars_dropWhile (cs : List Char) : parseChars (cs.dropWhile Text.isBlank) = parseChars cs := by
  rw [parseChars, parseChars, Text.trim_dropWhile]

theorem not_ok_nil : parseChars [] ≠ .ok t := by
  have hword : ofWord [] ≠ .ok t := by
    intro h
    cases ofWord_ok_iff.mp h
  rwa [parseChars_of_notMem (by decide) (by decide)]

theorem parseChars_framed (hbefore : Blank before) (hafter : Blank after) (hinner : '[' ∉ inner)
    (hcs : parseChars cs = .ok elem) :
    parseChars (before ++ (cs ++ bracketPair inner) ++ after) =
      bracketed (cs.dropWhile Text.isBlank ++ bracketPair inner) inner elem := by
  have htrim : Text.trim (before ++ (cs ++ bracketPair inner) ++ after) =
      cs.dropWhile Text.isBlank ++ bracketPair inner := by
    rw [Text.trim_append_right hafter, Text.trim_append_left hbefore, Text.trim_bracketed]
  have hfront : parseChars (cs.dropWhile Text.isBlank) = .ok elem := by
    rw [parseChars_dropWhile, hcs]
  refine parseChars_of_brackets htrim hinner hfront fun hnil => ?_
  rw [hnil] at hfront
  exact not_ok_nil hfront

theorem parseChars_of_derives (h : Derives cs t) : parseChars cs = .ok t := by
  induction h with
  | @word before cs after t hbefore hword hafter =>
    have hchars := alphanum_of_word hword
    have htrim : Text.trim (before ++ cs ++ after) = cs := by
      rw [Text.trim_append_right hafter, Text.trim_append_left hbefore]
      exact trim_of_plain fun c hc => isPlain_of_isAlphanum (hchars c hc)
    have hopen : '[' ∉ cs := fun hc => absurd (hchars _ hc) (by decide)
    have hclose : ']' ∉ cs := fun hc => absurd (hchars _ hc) (by decide)
    rw [parseChars_of_notMem (by rwa [htrim]) (by rwa [htrim]), htrim]
    exact ofWord_ok_iff.mpr hword
  | array hbefore items hafter ih =>
    rw [parseChars_framed hbefore hafter (by simp) ih]
    exact bracketed_ok_iff.mpr (.inl ⟨rfl, rfl⟩)
  | fixedArray hbefore items spelled written length hafter ih =>
    rw [parseChars_framed hbefore hafter (spelled.notMem (by decide)) ih]
    exact bracketed_ok_iff.mpr (.inr ⟨_, written, spelled, length, rfl⟩)

theorem derives_of_ok (h : parseChars cs = .ok t) : Derives cs t := by
  fun_induction parseChars cs generalizing t with
  | case1 | case3 | case4 | case5 => simp at h
  | case2 cs name =>
    obtain ⟨before, after, hbefore, hafter, hcs⟩ := Text.exists_trim cs
    rw [hcs]
    exact .word hbefore (ofWord_ok_iff.mp h) hafter
  | case6 cs name front back hsplit inner hclosed hfront elem helem =>
    rename_i ih
    obtain ⟨before, after, hbefore, hafter, hcs⟩ := Text.exists_trim cs
    have hname : Text.trim cs = front ++ bracketPair inner := by
      rw [bracketPair, ← closed?_eq_some_iff.mp hclosed]
      exact eq_of_splitLast hsplit
    rw [hcs, hname]
    rcases bracketed_ok_iff.mp h with ⟨rfl, rfl⟩ | ⟨n, written, spelled, length, rfl⟩
    · exact .array hbefore (ih helem) hafter
    · exact .fixedArray hbefore (ih helem) spelled written length hafter

theorem parseChars_ok_iff : parseChars cs = .ok t ↔ Derives cs t := ⟨derives_of_ok, parseChars_of_derives⟩

/-! ## Refusals -/

def IsTypeFault (e : Fault) : Prop := ∃ name, e = .unknownType name ∨ e = .badWidth name ∨ e = .malformedArray name

variable {e : Fault}

theorem isTypeFault_of_width (h : width name digits = .error e) : IsTypeFault e := by
  refine ⟨String.ofList name, ?_⟩
  unfold width at h
  split at h
  · simp at h
  split at h
  · exact .inl (Except.error.inj h).symm
  split at h
  · simp at h
  · exact .inr (.inl (Except.error.inj h).symm)

theorem isTypeFault_of_word (h : ofWord name = .error e) : IsTypeFault e := by
  unfold ofWord at h
  split at h
  · simp at h
  split at h
  · exact isTypeFault_of_width (map_error_iff.mp h)
  · exact isTypeFault_of_width (map_error_iff.mp h)
  · exact ⟨_, .inl (Except.error.inj h).symm⟩

theorem isTypeFault_of_bracketed (h : bracketed name inner elem = .error e) : IsTypeFault e := by
  refine ⟨String.ofList name, .inr (.inr ?_)⟩
  unfold bracketed at h
  split at h
  · simp at h
  split at h
  · split at h
    · simp at h
    · exact (Except.error.inj h).symm
  · exact (Except.error.inj h).symm

theorem isTypeFault_of_parseChars (h : parseChars cs = .error e) : IsTypeFault e := by
  fun_induction parseChars cs generalizing e with
  | case1 | case3 | case4 => exact ⟨_, .inr (.inr (Except.error.inj h).symm)⟩
  | case2 => exact isTypeFault_of_word h
  | case5 cs name front back hsplit inner hclosed hfront fault hfault =>
    rename_i ih
    exact ih (hfault.trans h)
  | case6 => exact isTypeFault_of_bracketed h

/-- A text is read as a type exactly when the grammar derives that type from it. A text from which it
derives none is refused as an unknown type, a bad width or a malformed array. -/
theorem parse_grammar (name : String) :
    (∀ t, parse name = .ok t ↔ Derives name.toList t) ∧
      ((∃ t, Derives name.toList t) ∨ ∃ part, parse name = .error (.unknownType part) ∨
        parse name = .error (.badWidth part) ∨ parse name = .error (.malformedArray part)) := by
  refine ⟨fun t => parseChars_ok_iff, ?_⟩
  cases h : parse name with
  | ok t => exact .inl ⟨t, parseChars_ok_iff.mp h⟩
  | error e =>
    obtain ⟨part, hpart⟩ := isTypeFault_of_parseChars h
    refine .inr ⟨part, ?_⟩
    simpa only [Except.error.injEq] using hpart

end ParamType

end Calldata
