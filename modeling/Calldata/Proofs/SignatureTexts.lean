import Calldata.Proofs.CanonicalNames

/-!
# Signatures as texts

A signature that someone types is read as a name and types, and written in its canonical form. For a
function of an interface this form is its signature, whatever spellings the interface has for the
types.
-/

namespace Calldata

variable {cs front back inner : List Char} {c : Char} {t : ParamType} {ts : List ParamType} {name : String}
  {texts : List String}

/-! ## Blanks -/

namespace Text

theorem trim_trim (cs : List Char) : trim (trim cs) = trim cs := by
  obtain ⟨before, after, hbefore, hafter, hcs⟩ := exists_trim cs
  conv => rhs; rw [hcs, trim_append_right hafter, trim_append_left hbefore]

theorem mem_of_mem_trim (h : c ∈ trim cs) : c ∈ cs := by
  obtain ⟨before, after, -, -, hcs⟩ := exists_trim cs
  rw [hcs]
  simp [h]

theorem dropWhile_of_trim (h : trim cs = cs) : cs.dropWhile isBlank = cs := by
  apply (List.dropWhile_sublist isBlank).eq_of_length_le
  have hle := length_trim_le (cs.dropWhile isBlank)
  rwa [trim_dropWhile, h] at hle

theorem blank_of_trim (h : trim cs = []) : Blank cs := by
  obtain ⟨before, after, hbefore, hafter, hcs⟩ := exists_trim cs
  rw [hcs, h, List.append_nil]
  exact List.forall_mem_append.mpr ⟨hbefore, hafter⟩

/-! ## The first bracket -/

theorem cut?_append (back : List Char) (h : c ∉ front) : cut? c (front ++ c :: back) = some (front, back) := by
  induction front with
  | nil => rw [List.nil_append, cut?, if_pos rfl]
  | cons a front ih =>
    rw [List.mem_cons, not_or] at h
    rw [List.cons_append, cut?, if_neg (Ne.symm h.1), ih h.2]
    rfl

theorem notMem_of_cut? (h : cut? c cs = some (front, back)) : c ∉ front := by
  induction cs generalizing front with
  | nil => simp [cut?] at h
  | cons a rest ih =>
    rw [cut?] at h
    split at h
    · simp_all
    · rename_i hne
      simp only [Option.map_eq_some_iff, Prod.mk.injEq, Prod.exists] at h
      obtain ⟨f, b, hf, rfl, rfl⟩ := h
      simp [ih hf, Ne.symm hne]

end Text

/-! ## Texts of types -/

namespace ParamType

theorem chars_of_derives (h : Derives cs t) :
    ∀ c ∈ cs, c.isAlphanum = true ∨ c = '[' ∨ c = ']' ∨ Text.isBlank c = true := by
  have hpair {inner : List Char} (hinner : ∀ c ∈ inner, c.isAlphanum = true) :
      ∀ c ∈ bracketPair inner, c.isAlphanum = true ∨ c = '[' ∨ c = ']' ∨ Text.isBlank c = true := by
    intro c hc
    simp only [bracketPair, List.mem_cons, List.mem_append, List.not_mem_nil, or_false] at hc
    rcases hc with rfl | hc | rfl
    · exact .inr (.inl rfl)
    · exact .inl (hinner c hc)
    · exact .inr (.inr (.inl rfl))
  have hblank {cs : List Char} (h : Blank cs) :
      ∀ c ∈ cs, c.isAlphanum = true ∨ c = '[' ∨ c = ']' ∨ Text.isBlank c = true :=
    fun c hc => .inr (.inr (.inr (h c hc)))
  induction h with
  | word hbefore hword hafter =>
    simp only [List.forall_mem_append]
    exact ⟨⟨hblank hbefore, fun c hc => .inl (alphanum_of_word hword c hc)⟩, hblank hafter⟩
  | array hbefore items hafter ih =>
    simp only [List.forall_mem_append]
    exact ⟨⟨hblank hbefore, ih, hpair (by simp)⟩, hblank hafter⟩
  | fixedArray hbefore items spelled written length hafter ih =>
    have hdigits := List.all_eq_true.mp (numeral_iff.mp spelled).1
    simp only [List.forall_mem_append]
    exact ⟨⟨hblank hbefore, ih, hpair fun c hc => isAlphanum_of_isDigit (hdigits c hc)⟩, hblank hafter⟩

theorem comma_notMem (h : parseChars cs = .ok t) : ',' ∉ cs := by
  intro hc
  have hchar := chars_of_derives (derives_of_ok h) ',' hc
  revert hchar
  decide

theorem not_blank_of_ok (h : parseChars cs = .ok t) : ¬ Blank cs := by
  intro hblank
  rw [← parseChars_dropWhile, List.dropWhile_eq_nil_iff.mpr hblank] at h
  exact not_ok_nil h

end ParamType

/-! ## Signatures -/

/-- A name that is told from the types behind it: it has characters, no blanks around them, and no
bracket that opens. -/
structure Readable (name : String) : Prop where
  nonempty : name.toList ≠ []
  trimmed : Text.trim name.toList = name.toList
  unopened : '(' ∉ name.toList

namespace Signature

/-- A function with the signature; nothing is known of its parameters but the types. -/
def toFunction (s : Signature) : Function := ⟨s.name, s.types.map (⟨"", ·, false⟩)⟩

@[simp] theorem types_toFunction (s : Signature) : s.toFunction.types = s.types := by
  unfold toFunction Function.types
  simp [Function.comp_def]

theorem signature_toFunction (s : Signature) : s.toFunction.signature = s.text := by
  unfold Function.signature text
  rw [types_toFunction]
  rfl

/-- A name with the texts of types behind it, as someone may type them. -/
def written (name : String) (texts : List String) : String := name ++ "(" ++ ",".intercalate texts ++ ")"

theorem written_names (s : Signature) : written s.name (s.types.map (·.name)) = s.text := rfl

theorem toList_written (name : String) (texts : List String) :
    (written name texts).toList = name.toList ++ '(' :: ([','].intercalate (texts.map (·.toList)) ++ [')']) := by
  unfold written
  simp [String.toList_intercalate]

theorem exists_intercalate (piece : List Char) (pieces : List (List Char)) :
    ∃ rest, [','].intercalate (piece :: pieces) = piece ++ rest := by
  cases pieces with
  | nil => exact ⟨[], by simp⟩
  | cons next pieces =>
    rw [List.intercalate_cons_cons, List.append_assoc]
    exact ⟨_, rfl⟩

theorem commas_notMem (h : List.Forall₂ (fun text t => ParamType.parse text = .ok t) texts ts) :
    ∀ text ∈ texts, ',' ∉ text.toList := by
  induction h with
  | nil => simp
  | cons hfirst hrest ih => exact List.forall_mem_cons.mpr ⟨ParamType.comma_notMem hfirst, ih⟩

theorem typesOf_written (h : texts.mapM ParamType.parse = .ok ts) :
    typesOf ([','].intercalate (texts.map (·.toList))) = .ok ts := by
  rw [mapM_ok_iff] at h
  unfold typesOf
  cases h with
  | nil => rfl
  | @cons text t texts ts hfirst hrest =>
    have hpieces : ∀ piece ∈ (text :: texts).map (·.toList), ',' ∉ piece := by
      rw [List.forall_mem_map]
      exact commas_notMem (.cons hfirst hrest)
    have hne : Text.trim ([','].intercalate ((text :: texts).map (·.toList))) ≠ [] := by
      intro hnil
      have hblank := Text.blank_of_trim hnil
      obtain ⟨rest, hfront⟩ := exists_intercalate text.toList (texts.map (·.toList))
      rw [List.map_cons, hfront] at hblank
      exact ParamType.not_blank_of_ok hfirst fun c hc => hblank c (List.mem_append_left rest hc)
    have hread : ((text :: texts).map (·.toList)).mapM ParamType.parseChars = .ok (t :: ts) := by
      rw [mapM_ok_iff, List.forall₂_map_left_iff]
      exact .cons hfirst hrest
    rw [if_neg hne, split_intercalate hpieces (by simp), hread]
    rfl

theorem trim_written (hname : Readable name) (inner : List Char) :
    Text.trim (name.toList ++ '(' :: (inner ++ [')'])) = name.toList ++ '(' :: (inner ++ [')']) := by
  rw [Text.trim_enclosed (by decide) (by decide), Text.dropWhile_of_trim hname.trimmed]

theorem parse_written (hname : Readable name) (h : texts.mapM ParamType.parse = .ok ts) :
    parse (written name texts) = .ok ⟨name, ts⟩ := by
  unfold parse
  rw [toList_written]
  simp only [trim_written hname, Text.cut?_append _ hname.unopened, List.getLast?_append, List.getLast?_singleton,
    Option.some_or, ne_eq, not_true_eq_false, if_false, List.dropLast_concat, hname.trimmed, hname.nonempty,
    typesOf_written h, String.ofList_toList]
  rfl

theorem readable_trim (hne : Text.trim front ≠ []) (hopen : '(' ∉ front) :
    Readable (String.ofList (Text.trim front)) where
  nonempty := by simpa using hne
  trimmed := by simp [Text.trim_trim]
  unopened := by
    rw [String.toList_ofList]
    exact fun hmem => hopen (Text.mem_of_mem_trim hmem)

theorem wellFormed_of_typesOf (h : typesOf inner = .ok ts) : ∀ t ∈ ts, t.WellFormed := by
  unfold typesOf at h
  split at h
  · obtain rfl := Except.ok.inj h
    simp
  · cases hread : (Text.split ',' inner).mapM ParamType.parseChars with
    | error e => simp [hread, Except.mapError] at h
    | ok types =>
      rw [hread] at h
      obtain rfl := Except.ok.inj h
      intro t ht
      obtain ⟨piece, hpiece⟩ := exists_of_mem_mapM hread ht
      exact ParamType.wellFormed_of_parseChars hpiece

theorem readable_of_parse {text : String} {s : Signature} (h : parse text = .ok s) :
    Readable s.name ∧ ∀ t ∈ s.types, t.WellFormed := by
  unfold parse at h
  simp only at h
  split at h
  · simp at h
  rename_i front back hcut
  split at h
  · simp at h
  split at h
  · simp at h
  rename_i hne
  cases htypes : typesOf back.dropLast with
  | error e => simp [htypes, Except.map] at h
  | ok types =>
    rw [htypes] at h
    obtain rfl := Except.ok.inj h
    exact ⟨readable_trim hne (Text.notMem_of_cut? hcut), wellFormed_of_typesOf htypes⟩

/-- The written form of a signature that was read is read as the same signature. -/
theorem parse_text {s : Signature} (hname : Readable s.name) (htypes : ∀ t ∈ s.types, t.WellFormed) :
    parse s.text = .ok s := by
  rw [← written_names]
  apply parse_written hname
  rw [mapM_ok_iff, List.forall₂_map_left_iff, List.forall₂_same]
  intro t ht
  exact ParamType.parse_of_wellFormed (htypes t ht)

end Signature

/-! ## Entries of interfaces -/

theorem texts_of_inputs {inputs : List InputDescription} {ps : List Parameter}
    (h : List.Forall₂ (fun input p => input.toParameter = .ok p) inputs ps) :
    ∃ texts : List String, inputs.map (·.type) = texts.map some ∧
      texts.mapM ParamType.parse = .ok (ps.map (·.type)) := by
  induction h with
  | nil => exact ⟨[], rfl, rfl⟩
  | @cons input p inputs ps hfirst hrest ih =>
    obtain ⟨texts, htexts, hread⟩ := ih
    unfold InputDescription.toParameter at hfirst
    split at hfirst
    · simp at hfirst
    · rename_i text htext
      obtain ⟨t, ht, rfl⟩ := map_ok_iff.mp hfirst
      refine ⟨text :: texts, by simp [htext, htexts], ?_⟩
      rw [mapM_ok_iff] at *
      exact .cons ht hread

theorem texts_of_entry {e : EntryDescription} {f : Function} (h : e.toFunction = .ok f) :
    e.name = some f.name ∧ ∃ texts : List String, e.inputs.map (·.type) = texts.map some ∧
      texts.mapM ParamType.parse = .ok f.types := by
  unfold EntryDescription.toFunction at h
  split at h
  · simp at h
  split at h
  · simp at h
  split at h
  · simp at h
  · rename_i name hname
    obtain ⟨ps, hps, rfl⟩ := map_ok_iff.mp h
    exact ⟨hname, texts_of_inputs (mapM_ok_iff.mp hps)⟩

/-- The report on a signature that someone types tells the signature of the function and its selector,
which is the one that its calls have. -/
structure ReportedAs (text : String) (f : Function) (report : Cli.Report) : Prop where
  told : Cli.selectorReport text = .ok report
  line : report.lines = [Hex.marked f.selector ++ "  " ++ f.signature]
  signature : ("signature", .string f.signature) ∈ report.fields
  selector : ("selector", .string (Hex.marked f.selector)) ∈ report.fields
  encoded (args : List Value) (call : Bytes) (h : f.encodeCall args = .ok call) : call.take selectorSize = f.selector
  decoded (args : List Value) (call : Bytes) (h : f.decodeCall call = .ok args) : call.take selectorSize = f.selector

/-- The text of a function's name and of its types as the entry has them is read as that function. -/
def TypedAs (e : EntryDescription) (f : Function) : Prop :=
  ∃ texts, e.name = some f.name ∧ e.inputs.map (·.type) = texts.map some ∧
    (Readable f.name → (∃ s, Signature.parse (Signature.written f.name texts) = .ok s ∧ s.text = f.signature) ∧
      ∃ report, ReportedAs (Signature.written f.name texts) f report)

theorem take_of_encodeCall {f : Function} {args : List Value} {call : Bytes} (h : f.encodeCall args = .ok call) :
    call.take selectorSize = f.selector := by
  obtain ⟨b, -, rfl⟩ := Function.encodeCall_iff.mp h
  simp

theorem take_of_decodeCall {f : Function} {args : List Value} {call : Bytes} (h : f.decodeCall call = .ok args) :
    call.take selectorSize = f.selector := by
  unfold Function.decodeCall splitCall at h
  by_cases hshort : call.length < selectorSize
  · simp [hshort] at h
  · by_contra hne
    simp [hshort, hne] at h

theorem reported_of_parse {text : String} {f : Function} (h : Signature.parse text = .ok ⟨f.name, f.types⟩) :
    ∃ report, ReportedAs text f report := by
  have htold : Cli.selectorReport text = .ok {
      lines := [Hex.marked f.selector ++ "  " ++ f.signature]
      fields := [("signature", .string f.signature), ("hash", .string (Sha3.digest (Text.utf8 f.signature)).text),
        ("selector", .string (Hex.marked f.selector))] } := by
    unfold Cli.selectorReport
    rw [h]
    rfl
  exact ⟨_, htold, rfl, by simp, by simp, fun _ _ => take_of_encodeCall, fun _ _ => take_of_decodeCall⟩

theorem typedAs_of_entry {e : EntryDescription} {f : Function} (h : e.toFunction = .ok f) : TypedAs e f := by
  obtain ⟨hname, texts, htexts, hread⟩ := texts_of_entry h
  refine ⟨texts, hname, htexts, fun hreadable => ?_⟩
  have hparse := Signature.parse_written hreadable hread
  exact ⟨⟨_, hparse, rfl⟩, reported_of_parse hparse⟩

/-- What is read from a text as a signature is that of a function with a readable name and well-formed
types, and its written form is read as the same. A function of an interface has the signature and the
selector that are told for its name and the texts that the interface has for its types. -/
theorem signature_as_typed :
    (∀ text s, Signature.parse text = .ok s →
      (∃ f : Function, f.signature = s.text ∧ Readable f.name ∧ ∀ t ∈ f.types, t.WellFormed) ∧
        ∃ s', Signature.parse s.text = .ok s' ∧ s'.text = s.text) ∧
    ∀ text i, Interface.parse text = .ok i →
      ∃ es, Interface.entries? text = some es ∧ List.Forall₂ TypedAs es i.functions := by
  constructor
  · intro text s h
    obtain ⟨hname, htypes⟩ := Signature.readable_of_parse h
    refine ⟨⟨s.toFunction, s.signature_toFunction, hname, ?_⟩, s, Signature.parse_text hname htypes, rfl⟩
    rwa [s.types_toFunction]
  · intro text i h
    unfold Interface.parse Interface.ofEntries at h
    split at h
    · simp at h
    · rename_i es hes
      obtain ⟨fs, hfs, rfl⟩ := map_ok_iff.mp h
      refine ⟨es, hes, (mapM_ok_iff.mp hfs).imp ?_⟩
      intro e f
      exact typedAs_of_entry

theorem signature_as_typed_spellings :
    let json := "[\x7b\"type\":\"function\",\"name\":\"pay\",\"inputs\":[" ++
      "\x7b\"name\":\"sum\",\"type\":\" uint\"\x7d,\x7b\"name\":\"to\",\"type\":\"address [02][]\"\x7d]\x7d]"
    let receivers := ParamType.array (.fixedArray (.identifier .address) 2)
    let types := [ParamType.uint 256, receivers]
    let pay : Function := ⟨"pay", [⟨"sum", .uint 256, false⟩, ⟨"to", receivers, false⟩]⟩
    (Signature.parse " pay( uint256,address[2] [])" = .ok ⟨"pay", types⟩ ∧
      ∃ s, Signature.parse "pay(uint256,address[2][])" = .ok s ∧ s.text = "pay(uint256,address[2][])") ∧
    (Interface.parse json = .ok ⟨[pay]⟩ ∧ Readable "pay" ∧
      (∃ s, Signature.parse "pay( uint,address [02][])" = .ok s ∧ s.text = pay.signature) ∧
      ∃ report, ReportedAs "pay( uint,address [02][])" pay report) := by
  intro json receivers types pay
  have htyped : Signature.parse " pay( uint256,address[2] [])" = .ok ⟨"pay", types⟩ :=
    eq_ok_of_toOption (by decide +kernel)
  have hjson : Interface.parse json = .ok ⟨[pay]⟩ := eq_ok_of_toOption (by decide +kernel)
  have hentries : Interface.entries? json = some [⟨some "pay", some "function",
      [⟨"sum", some " uint", false⟩, ⟨"to", some "address [02][]", false⟩]⟩] := by decide +kernel
  have hreadable : Readable "pay" := ⟨by decide, by decide, by decide⟩
  obtain ⟨hread, hentry⟩ := signature_as_typed
  obtain ⟨-, hagain⟩ := hread _ _ htyped
  have htext : (⟨"pay", types⟩ : Signature).text = "pay(uint256,address[2][])" := by decide +kernel
  rw [htext] at hagain
  obtain ⟨es, hes, hall⟩ := hentry json _ hjson
  obtain rfl := Option.some.inj (hentries.symm.trans hes)
  obtain ⟨⟨texts, -, htexts, htold⟩, -⟩ := List.forall₂_cons.mp hall
  obtain rfl : texts = [" uint", "address [02][]"] :=
    List.map_injective_iff.mpr (Option.some_injective String) htexts.symm
  exact ⟨⟨htyped, hagain⟩, hjson, hreadable, htold hreadable⟩

end Calldata
