import Calldata.Proofs.Addressing

/-!
# Canonical names

The name that is written for a well-formed type is read as that type, and no two types, whether
well-formed or not, have one name. So the signature of a function tells its name and the types of
its parameters, whatever characters the name has.
-/

namespace Calldata

variable {c : Char} {cs front xs ys : List Char} {pieces : List (List Char)}

namespace ParamType

variable {t u elem : ParamType} {ts us : List ParamType}

/-! ## Names as texts of the grammar -/

theorem blank_nil : Blank [] := by
  intro c hc
  simp at hc

theorem derives_of_word (h : Word cs t) : Derives cs t := by
  simpa using Derives.word blank_nil h blank_nil

theorem Derives.brackets (items : Derives cs elem) : Derives (cs ++ bracketPair []) (.array elem) := by
  simpa using Derives.array blank_nil items blank_nil

theorem Derives.countedBrackets {n : Nat} (items : Derives cs elem) (hn : IsArrayLength n) :
    Derives (cs ++ bracketPair (decimalDigits n)) (.fixedArray elem n) := by
  simpa using Derives.fixedArray blank_nil items (numeral_decimalDigits n) (decimalDigits_ne_nil n) hn blank_nil

theorem derives_nameChars (h : t.WellFormed) : Derives t.nameChars t := by
  induction t with
  | int bits => exact derives_of_word (.intOf (numeral_decimalDigits bits) (decimalDigits_ne_nil bits) h)
  | uint bits => exact derives_of_word (.uintOf (numeral_decimalDigits bits) (decimalDigits_ne_nil bits) h)
  | bool => exact derives_of_word .bool
  | identifier k =>
    cases k with
    | address => exact derives_of_word .address
    | hash => exact derives_of_word .hash
    | token => exact derives_of_word .token
  | bytes32 => exact derives_of_word .bytes32
  | bytes => exact derives_of_word .bytes
  | string => exact derives_of_word .string
  | function => exact derives_of_word .function
  | fixedArray elem n ih =>
    rw [nameChars_fixedArray]
    exact (ih h.1).countedBrackets h.2
  | array elem ih => exact (ih h).brackets

theorem parse_of_wellFormed (h : t.WellFormed) : parse t.name = .ok t := by
  unfold parse name
  rw [String.toList_ofList]
  exact parseChars_ok_iff.mpr (derives_nameChars h)

/-- The name of a type is read as that type exactly when the type is well-formed. Reading gives only
such types, and two texts are read as one type exactly when their types have one name. -/
theorem parse_canonical (t : ParamType) :
    (t.WellFormed ↔ parse t.name = .ok t) ∧
      ∀ text, parse text = .ok t → t.WellFormed ∧ parse t.name = .ok t ∧
        ∀ text' t', parse text' = .ok t' → (t = t' ↔ t.name = t'.name) := by
  refine ⟨⟨parse_of_wellFormed, wellFormed_of_parseChars⟩, fun text h => ?_⟩
  have hname := parse_of_wellFormed (wellFormed_of_parseChars h)
  refine ⟨wellFormed_of_parseChars h, hname, fun text' t' h' => ⟨congrArg name, fun heq => ?_⟩⟩
  have hname' := parse_of_wellFormed (wellFormed_of_parseChars h')
  rw [← heq, hname] at hname'
  exact Except.ok.inj hname'

/-! ## Names tell types -/

/-- The type of a name of one word, whatever width is written in it. -/
def ofWordName (name : List Char) : ParamType :=
  match keyword? name with
  | some t => t
  | none =>
    match behind? "uint".toList name with
    | some digits => uint (digitsValue digits)
    | none => int (digitsValue (name.drop "int".length))

theorem ofWordName_nameChars (h : t.IsWord) : ofWordName t.nameChars = t := by
  cases t with
  | int bits =>
    have hkeyword : keyword? (int bits).nameChars = none := keyword?_eq_none (.inl rfl) rfl
    have hunsigned : behind? "uint".toList (int bits).nameChars = none := by
      simp [behind?, nameChars_int]
    have hdigits : (int bits).nameChars.drop "int".length = decimalDigits bits := rfl
    unfold ofWordName
    simp only [hkeyword, hunsigned, hdigits, digitsValue_decimalDigits]
  | uint bits =>
    have hkeyword : keyword? (uint bits).nameChars = none := keyword?_eq_none (.inr rfl) rfl
    have hunsigned : behind? "uint".toList (uint bits).nameChars = some (decimalDigits bits) := behind?_append _ _
    unfold ofWordName
    simp only [hkeyword, hunsigned, digitsValue_decimalDigits]
  | bool | bytes32 | bytes | string | function => decide
  | identifier k => cases k <;> decide
  | fixedArray | array => exact h.elim

theorem nameChars_ne_of_isWord (h : t.IsWord) : t.nameChars ≠ cs ++ bracketPair xs := by
  intro heq
  have hmem : '[' ∈ t.nameChars := by simp [heq, bracketPair]
  exact absurd (alphanum_of_isWord h _ hmem) (by decide)

theorem bracketPair_unique {as bs : List Char} (hx : '[' ∉ xs) (hy : '[' ∉ ys)
    (h : as ++ bracketPair xs = bs ++ bracketPair ys) : as = bs ∧ xs = ys := by
  have hfront : as = bs := front_unique (by simp [hx]) (by simp [hy]) h
  subst hfront
  exact ⟨rfl, by simpa [bracketPair] using h⟩

theorem open_notMem_decimalDigits (n : Nat) : '[' ∉ decimalDigits n :=
  (numeral_decimalDigits n).notMem (by decide)

theorem isWord_or_array (t : ParamType) :
    t.IsWord ∨ (∃ elem, t = array elem) ∨ ∃ elem n, t = fixedArray elem n := by
  cases t with
  | array elem => exact .inr (.inl ⟨elem, rfl⟩)
  | fixedArray elem n => exact .inr (.inr ⟨elem, n, rfl⟩)
  | _ => exact .inl trivial

theorem eq_of_isWord (ht : t.IsWord) (hu : u.IsWord) (h : t.nameChars = u.nameChars) : t = u := by
  rw [← ofWordName_nameChars ht, h, ofWordName_nameChars hu]

theorem nameChars_injective (h : t.nameChars = u.nameChars) : t = u := by
  -- The last pair of a name is that of the outermost array: each step takes one off both names.
  induction t generalizing u with
  | array elem ih =>
    rw [nameChars_array] at h
    rcases isWord_or_array u with hu | ⟨elem', rfl⟩ | ⟨elem', m, rfl⟩
    · exact absurd h.symm (nameChars_ne_of_isWord hu)
    · obtain ⟨helem, -⟩ := bracketPair_unique List.not_mem_nil List.not_mem_nil h
      rw [ih helem]
    · rw [nameChars_fixedArray] at h
      obtain ⟨-, hinner⟩ := bracketPair_unique List.not_mem_nil (open_notMem_decimalDigits m) h
      exact absurd hinner.symm (decimalDigits_ne_nil m)
  | fixedArray elem n ih =>
    rw [nameChars_fixedArray] at h
    rcases isWord_or_array u with hu | ⟨elem', rfl⟩ | ⟨elem', m, rfl⟩
    · exact absurd h.symm (nameChars_ne_of_isWord hu)
    · obtain ⟨-, hinner⟩ := bracketPair_unique (open_notMem_decimalDigits n) List.not_mem_nil h
      exact absurd hinner (decimalDigits_ne_nil n)
    · rw [nameChars_fixedArray] at h
      obtain ⟨helem, hdigits⟩ := bracketPair_unique (open_notMem_decimalDigits n) (open_notMem_decimalDigits m) h
      rw [ih helem, ← digitsValue_decimalDigits n, hdigits, digitsValue_decimalDigits]
  | _ =>
    rcases isWord_or_array u with hu | ⟨elem', rfl⟩ | ⟨elem', m, rfl⟩
    · exact eq_of_isWord (by trivial) hu h
    · rw [nameChars_array] at h
      exact absurd h (nameChars_ne_of_isWord (by trivial))
    · rw [nameChars_fixedArray] at h
      exact absurd h (nameChars_ne_of_isWord (by trivial))

theorem name_inj : t.name = u.name ↔ t = u := by
  refine ⟨fun h => nameChars_injective ?_, congrArg name⟩
  simpa [name] using congrArg String.toList h

theorem nameChars_ne_nil (t : ParamType) : t.nameChars ≠ [] := by
  cases t with
  | array elem | fixedArray elem n => simp [nameChars_array, nameChars_fixedArray, bracketPair]
  | int bits | uint bits => simp [nameChars_int, nameChars_uint]
  | identifier k => cases k <;> decide
  | _ => decide

end ParamType

/-! ## Lists of names -/

theorem split_of_notMem (h : c ∉ cs) : Text.split c cs = [cs] := by
  induction cs with
  | nil => rfl
  | cons a rest ih =>
    rw [List.mem_cons, not_or] at h
    rw [Text.split, if_neg (Ne.symm h.1), ih h.2]

theorem split_append (rest : List Char) (h : c ∉ front) :
    Text.split c (front ++ c :: rest) = front :: Text.split c rest := by
  induction front with
  | nil => rw [List.nil_append, Text.split, if_pos rfl]
  | cons a front ih =>
    rw [List.mem_cons, not_or] at h
    rw [List.cons_append, Text.split, if_neg (Ne.symm h.1), ih h.2]

theorem split_intercalate (h : ∀ piece ∈ pieces, c ∉ piece) (hne : pieces ≠ []) :
    Text.split c ([c].intercalate pieces) = pieces := by
  induction pieces with
  | nil => exact absurd rfl hne
  | cons piece pieces ih =>
    rw [List.forall_mem_cons] at h
    cases pieces with
    | nil => simpa using split_of_notMem h.1
    | cons next rest =>
      rw [List.intercalate_cons_cons, List.append_assoc, List.singleton_append, split_append _ h.1,
        ih h.2 (List.cons_ne_nil next rest)]

namespace ParamType

variable {ts us : List ParamType}

theorem split_names (ts : List ParamType) (hne : ts ≠ []) :
    Text.split ',' ([','].intercalate (ts.map (·.nameChars))) = ts.map (·.nameChars) := by
  refine split_intercalate (fun piece hpiece => ?_) (by simpa using hne)
  obtain ⟨t, -, rfl⟩ := List.mem_map.mp hpiece
  exact notMem_nameChars (by decide) (by decide) (by decide) t

theorem names_eq_nil_iff : [','].intercalate (ts.map (·.nameChars)) = [] ↔ ts = [] := by
  refine ⟨fun h => ?_, fun h => by simp [h]⟩
  cases ts with
  | nil => rfl
  | cons t ts =>
    cases ts with
    | nil => exact absurd h (by simp [nameChars_ne_nil])
    | cons u us =>
      rw [List.map_cons, List.map_cons, List.intercalate_cons_cons] at h
      simp at h

theorem names_injective (h : [','].intercalate (ts.map (·.nameChars)) = [','].intercalate (us.map (·.nameChars))) :
    ts = us := by
  by_cases hts : ts = []
  · rw [names_eq_nil_iff.mpr hts] at h
    rw [hts, names_eq_nil_iff.mp h.symm]
  · have hus : us ≠ [] := fun hus => hts (names_eq_nil_iff.mp (h.trans (names_eq_nil_iff.mpr hus)))
    have hnames : ts.map (·.nameChars) = us.map (·.nameChars) := by
      rw [← split_names ts hts, h, split_names us hus]
    exact List.map_injective_iff.mpr (fun t u => nameChars_injective) hnames

end ParamType

/-! ## Signatures -/

variable {f g : Function}

/-- Two byte strings that are not the same have hashes that begin with the same selector. -/
def Collide (hash : HashFunction) (bs bs' : Bytes) : Prop :=
  bs ≠ bs' ∧ (hash bs).bytes.take selectorSize = (hash bs').bytes.take selectorSize

theorem types_eq_of_signature (h : f.signature = g.signature) : f.types = g.types := by
  have htext := congrArg String.toList h
  rw [toList_signature, toList_signature, name_eq_of_signature h, List.append_cancel_left_eq] at htext
  exact ParamType.names_injective (List.append_cancel_right (List.cons.inj htext).2)

theorem signature_eq_iff : f.signature = g.signature ↔ f.name = g.name ∧ f.types = g.types := by
  refine ⟨fun h => ⟨name_eq_of_signature h, types_eq_of_signature h⟩, fun ⟨hname, htypes⟩ => ?_⟩
  unfold Function.signature
  rw [hname, htypes]

/-- A signature tells the name and the types of the parameters and nothing else, whatever the name is
and whether or not the types are well-formed, because every type has a name of its own. So functions
that differ in name or types have one selector only where the hashes of their signatures collide. -/
theorem signature_injective (f g : Function) (hash : HashFunction) :
    (f.signature = g.signature ↔ f.name = g.name ∧ f.types = g.types) ∧
      (∀ t u : ParamType, t.name = u.name ↔ t = u) ∧
      (f.selector hash = g.selector hash ↔
        (f.name = g.name ∧ f.types = g.types) ∨
          Collide hash (Text.utf8 f.signature) (Text.utf8 g.signature)) := by
  refine ⟨signature_eq_iff, fun t u => ParamType.name_inj, ?_⟩
  rw [← signature_eq_iff]
  unfold Function.selector selectorOf Collide
  constructor
  · intro h
    by_cases heq : f.signature = g.signature
    · exact .inl heq
    · exact .inr ⟨fun hbytes => heq (Text.utf8_injective hbytes), h⟩
  · rintro (heq | ⟨-, h⟩)
    · rw [heq]
    · exact h

end Calldata
