import Calldata.Proofs.Budget
import Calldata.Proofs.Descriptions
import Calldata.Proofs.FirstRefusals

/-!
# Loading an interface

An interface is loaded as a whole or not at all. Its functions and their parameters are those that the
document describes, in its order, and a fault is the one of the first entry that describes no function.
-/

namespace Calldata

open Json (Draft)

variable {α β : Type} {fs : List (Option String × Draft)} {gs : List (String × Draft)} {d : Draft}
  {part : Option Draft} {name text : String} {missing a : α} {read : Draft → Option α} {place : Nat} {fault : Fault}
  {input : InputDescription} {inputs : List InputDescription} {e : EntryDescription} {es : List EntryDescription}
  {p : Parameter} {f : Function} {i : Interface}

/-! ## What a document describes -/

/-- What a draft holds for a field, which an array holds at its place. -/
def Json.Draft.part? (name : String) (place : Nat) : Draft → Option Draft
  | .object fs => (fs.find? (·.1 = some name)).map (·.2)
  | .array ds => ds[place]?
  | _ => none

/-- The field holds this text, or no text if there is none. -/
def HasText (part : Option Draft) (text : Option String) : Prop := ∀ s, text = some s ↔ part = some (.string (some s))

structure InputDescription.Describes (d : Draft) (input : InputDescription) : Prop where
  name : d.part? "name" 0 = some (.string (some input.name)) ∨ d.part? "name" 0 = none ∧ input.name = ""
  type : HasText (d.part? "type" 1) input.type
  indexed : d.part? "indexed" 2 = some (.bool input.indexed) ∨ d.part? "indexed" 2 = none ∧ input.indexed = false

structure EntryDescription.Describes (d : Draft) (e : EntryDescription) : Prop where
  name : HasText (d.part? "name" 0) e.name
  type : HasText (d.part? "type" 1) e.type
  inputs : (∃ ds, d.part? "inputs" 2 = some (.array ds) ∧ List.Forall₂ InputDescription.Describes ds e.inputs) ∨
    (d.part? "inputs" 2 = none ∨ d.part? "inputs" 2 = some .null) ∧ e.inputs = []

/-! ## Fields -/

theorem eq_of_namedFields? (h : namedFields? fs = some gs) : fs = gs.map fun g => (some g.1, g.2) := by
  induction fs generalizing gs with
  | nil =>
    obtain rfl : [] = gs := Option.some.inj h
    rfl
  | cons first rest ih =>
    obtain ⟨name, d⟩ := first
    simp only [namedFields?, Option.bind_eq_bind, Option.bind_eq_some_iff, Option.pure_def, Option.some.injEq] at h
    obtain ⟨n, rfl, gs', hgs', rfl⟩ := h
    rw [List.map_cons, ← ih hgs']

theorem part?_of_namedFields? (h : namedFields? fs = some gs) :
    Draft.part? name place (.object fs) = (gs.find? (·.1 = name)).map (·.2) := by
  rw [eq_of_namedFields? h, Draft.part?, List.find?_map, Option.map_map]
  simp [Function.comp_def]

theorem eq_of_field? (h : field? name gs = some part) : part = (gs.find? (·.1 = name)).map (·.2) := by
  unfold field? at h
  rw [← List.head?_filter]
  split at h
  · rename_i hnone
    rw [hnone]
    exact (Option.some.inj h).symm
  · rename_i hone
    rw [hone]
    exact (Option.some.inj h).symm
  · simp at h

/-- A field is read when it is there, and has a value of its own when it is not. -/
def Reads (part : Option Draft) (missing : α) (read : Draft → Option α) (a : α) : Prop :=
  (∃ d, part = some d ∧ read d = some a) ∨ part = none ∧ a = missing

theorem reads_of_readField (hgs : namedFields? fs = some gs) (h : readField missing read name gs = some a) :
    Reads (Draft.part? name place (.object fs)) missing read a := by
  simp only [readField, Option.bind_eq_bind, Option.bind_eq_some_iff] at h
  obtain ⟨part, hpart, hread⟩ := h
  rw [part?_of_namedFields? hgs, ← eq_of_field? hpart]
  cases part with
  | none => exact .inr ⟨rfl, (Option.some.inj hread).symm⟩
  | some d => exact .inl ⟨d, rfl, hread⟩

theorem string_of_reads {s : String} (h : Reads part "" Draft.string? s) :
    part = some (.string (some s)) ∨ part = none ∧ s = "" := by
  apply h.imp_left
  rintro ⟨d, rfl, hd⟩
  cases d <;> simp_all [Draft.string?]

theorem bool_of_reads {b : Bool} (h : Reads part false Draft.bool? b) :
    part = some (.bool b) ∨ part = none ∧ b = false := by
  apply h.imp_left
  rintro ⟨d, rfl, hd⟩
  cases d <;> simp_all [Draft.bool?]

theorem hasText_of_reads {text : Option String} (h : Reads part none Draft.optionalString? text) : HasText part text := by
  intro s
  rcases h with ⟨d, rfl, hd⟩ | ⟨rfl, rfl⟩
  · unfold Draft.optionalString? at hd
    split at hd
    · obtain rfl := Option.some.inj hd
      simp
    · obtain rfl := Option.some.inj hd
      simp
    · simp at hd
  · simp

theorem forall₂_of_mapM {g : α → Option β} {xs : List α} {ys : List β} (h : xs.mapM g = some ys) :
    List.Forall₂ (fun x y => g x = some y) xs ys := by
  induction xs generalizing ys with
  | nil =>
    obtain rfl : [] = ys := by simpa using h
    exact .nil
  | cons x xs ih =>
    rw [List.mapM_cons] at h
    simp only [Option.bind_eq_bind, Option.bind_eq_some_iff, Option.pure_def, Option.some.injEq] at h
    obtain ⟨y, hy, rest, hrest, rfl⟩ := h
    exact .cons hy (ih hrest)

/-! ## Inputs and entries -/

theorem InputDescription.describes_of_ofDraft? (h : ofDraft? d = some input) : Describes d input := by
  unfold ofDraft? at h
  split at h
  · rename_i fs
    simp only [Option.bind_eq_bind, Option.bind_eq_some_iff, Option.pure_def, Option.some.injEq] at h
    obtain ⟨gs, hgs, name, hname, type, htype, indexed, hindexed, rfl⟩ := h
    exact ⟨string_of_reads (reads_of_readField hgs hname), hasText_of_reads (reads_of_readField hgs htype),
      bool_of_reads (reads_of_readField hgs hindexed)⟩
  · simp only [Option.bind_eq_bind, Option.bind_eq_some_iff, Option.pure_def, Option.some.injEq] at h
    obtain ⟨name, hname, type, htype, rfl⟩ := h
    exact ⟨string_of_reads (.inl ⟨_, rfl, hname⟩), hasText_of_reads (.inl ⟨_, rfl, htype⟩), .inr ⟨rfl, rfl⟩⟩
  · simp only [Option.bind_eq_bind, Option.bind_eq_some_iff, Option.pure_def, Option.some.injEq] at h
    obtain ⟨name, hname, type, htype, indexed, hindexed, rfl⟩ := h
    exact ⟨string_of_reads (.inl ⟨_, rfl, hname⟩), hasText_of_reads (.inl ⟨_, rfl, htype⟩),
      bool_of_reads (.inl ⟨_, rfl, hindexed⟩)⟩
  · simp at h

theorem inputs_of_reads (h : Reads part [] inputs? inputs) :
    (∃ ds, part = some (.array ds) ∧ List.Forall₂ InputDescription.Describes ds inputs) ∨
      (part = none ∨ part = some .null) ∧ inputs = [] := by
  rcases h with ⟨d, rfl, hd⟩ | ⟨rfl, rfl⟩
  · unfold inputs? at hd
    split at hd
    · exact .inr ⟨.inr rfl, (Option.some.inj hd).symm⟩
    · exact .inl ⟨_, rfl, (forall₂_of_mapM hd).imp fun _ _ => InputDescription.describes_of_ofDraft?⟩
    · simp at hd
  · exact .inr ⟨.inl rfl, rfl⟩

theorem EntryDescription.describes_of_ofDraft? (h : ofDraft? d = some e) : Describes d e := by
  unfold ofDraft? at h
  split at h
  · rename_i fs
    simp only [Option.bind_eq_bind, Option.bind_eq_some_iff, Option.pure_def, Option.some.injEq] at h
    obtain ⟨gs, hgs, name, hname, type, htype, inputs, hinputs, rfl⟩ := h
    exact ⟨hasText_of_reads (reads_of_readField hgs hname), hasText_of_reads (reads_of_readField hgs htype),
      inputs_of_reads (reads_of_readField hgs hinputs)⟩
  · simp only [Option.bind_eq_bind, Option.bind_eq_some_iff, Option.pure_def, Option.some.injEq] at h
    obtain ⟨name, hname, type, htype, inputs, hinputs, rfl⟩ := h
    exact ⟨hasText_of_reads (.inl ⟨_, rfl, hname⟩), hasText_of_reads (.inl ⟨_, rfl, htype⟩),
      inputs_of_reads (.inl ⟨_, rfl, hinputs⟩)⟩
  · simp at h

theorem Interface.describes_of_entries? (h : Interface.entries? text = some es) :
    ∃ ds, Draft.read? text = some (.array ds) ∧ List.Forall₂ EntryDescription.Describes ds es := by
  unfold entries? at h
  split at h
  · rename_i ds hds
    exact ⟨ds, hds, (forall₂_of_mapM h).imp fun _ _ => EntryDescription.describes_of_ofDraft?⟩
  · simp at h

/-! ## What is loaded -/

theorem exists_mapM_iff {ε : Type} {g : α → Except ε β} {xs : List α} :
    (∃ ys, xs.mapM g = .ok ys) ↔ ∀ x ∈ xs, ∃ y, g x = .ok y := by
  simp only [mapM_ok_iff]
  induction xs with
  | nil => simp
  | cons x xs ih =>
    simp only [List.forall₂_cons_left_iff, List.forall_mem_cons, ← ih]
    constructor
    · rintro ⟨-, y, ys, hy, hys, rfl⟩
      exact ⟨⟨y, hy⟩, ys, hys⟩
    · rintro ⟨⟨y, hy⟩, ys, hys⟩
      exact ⟨y :: ys, y, ys, hy, hys, rfl⟩

namespace InputDescription

/-- The parameter has the name and the mark of the input, and the type that its type is the name of. -/
structure Loads (input : InputDescription) (p : Parameter) : Prop where
  name : p.name = input.name
  indexed : p.indexed = input.indexed
  type : ∃ text, input.type = some text ∧ ParamType.parse text = .ok p.type

/-- There is a type, and it can be read. -/
def Loadable (input : InputDescription) : Prop := ∃ text t, input.type = some text ∧ ParamType.parse text = .ok t

inductive Refused : InputDescription → Fault → Prop
  | noType {input : InputDescription} (h : input.type = none) : Refused input (.missingField .inputType)
  | badType {input : InputDescription} {text : String} {fault : Fault} (h : input.type = some text)
      (hparse : ParamType.parse text = .error fault) : Refused input fault

theorem toParameter_ok_iff : input.toParameter = .ok p ↔ input.Loads p := by
  obtain ⟨name, type, indexed⟩ := input
  cases type with
  | none =>
    constructor
    · intro h
      simp [toParameter] at h
    · rintro ⟨-, -, text, h, -⟩
      simp at h
  | some text =>
    unfold toParameter
    rw [map_ok_iff]
    constructor
    · rintro ⟨t, ht, rfl⟩
      exact ⟨rfl, rfl, text, rfl, ht⟩
    · rintro ⟨hname, hindexed, text', htext, ht⟩
      obtain rfl := Option.some.inj htext
      refine ⟨p.type, ht, ?_⟩
      rw [← hname, ← hindexed]

theorem toParameter_error_iff : input.toParameter = .error fault ↔ input.Refused fault := by
  constructor
  · intro h
    unfold toParameter at h
    split at h
    · rename_i hnone
      obtain rfl := Except.error.inj h
      exact .noType hnone
    · rename_i text htext
      exact .badType htext (map_error_iff.mp h)
  · rintro (hnone | ⟨htext, hparse⟩)
    · rw [toParameter, hnone]
    · rw [toParameter, htext]
      exact map_error_iff.mpr hparse

theorem loadable_iff : (∃ p, input.toParameter = .ok p) ↔ input.Loadable := by
  simp only [toParameter_ok_iff]
  constructor
  · rintro ⟨p, -, -, text, htext, hparse⟩
    exact ⟨text, p.type, htext, hparse⟩
  · rintro ⟨text, t, htext, hparse⟩
    exact ⟨⟨input.name, t, input.indexed⟩, rfl, rfl, text, htext, hparse⟩

end InputDescription

namespace EntryDescription

/-- The function has the name of the entry, and a parameter for each of its inputs. -/
structure Loads (e : EntryDescription) (f : Function) : Prop where
  type : e.type = some "function"
  name : e.name = some f.name
  inputs : List.Forall₂ InputDescription.Loads e.inputs f.inputs

structure Loadable (e : EntryDescription) : Prop where
  type : e.type = some "function"
  name : ∃ name, e.name = some name
  inputs (input : InputDescription) (h : input ∈ e.inputs) : input.Loadable

/-- What is wrong with an entry. A fault of an input counts only when its type and its name are there. -/
inductive Refused : EntryDescription → Fault → Prop
  | noType {e : EntryDescription} (h : e.type = none) : Refused e (.missingField .entryType)
  | otherType {e : EntryDescription} {kind : String} (h : e.type = some kind) (hkind : kind ≠ "function") :
      Refused e (.unsupportedEntry kind)
  | noName {e : EntryDescription} (htype : e.type = some "function") (hname : e.name = none) :
      Refused e (.missingField .entryName)
  | input {e : EntryDescription} {name : String} {k : Nat} {fault : Fault} (htype : e.type = some "function")
      (hname : e.name = some name)
      (h : FirstRefused InputDescription.Loadable InputDescription.Refused e.inputs k fault) : Refused e fault

theorem mapM_inputs_ok_iff {ps : List Parameter} :
    inputs.mapM InputDescription.toParameter = .ok ps ↔ List.Forall₂ InputDescription.Loads inputs ps := by
  simp only [mapM_ok_iff, InputDescription.toParameter_ok_iff]

theorem mapM_inputs_error_iff : inputs.mapM InputDescription.toParameter = .error fault ↔
    ∃ k, FirstRefused InputDescription.Loadable InputDescription.Refused inputs k fault := by
  rw [mapM_error_iff]
  apply exists_congr
  intro k
  exact firstRefused_congr (fun _ _ => InputDescription.loadable_iff) fun _ _ => InputDescription.toParameter_error_iff

theorem toFunction_of_named (htype : e.type = some "function") (hname : e.name = some name) :
    e.toFunction = (e.inputs.mapM InputDescription.toParameter).map fun ps => ⟨name, ps⟩ := by
  unfold toFunction
  simp only [htype, hname, ne_eq, not_true_eq_false, if_false]

theorem toFunction_ok_iff : e.toFunction = .ok f ↔ e.Loads f := by
  constructor
  · intro h
    unfold toFunction at h
    split at h
    · simp at h
    rename_i type htype
    split at h
    · simp at h
    rename_i hfunction
    split at h
    · simp at h
    rename_i name hname
    obtain ⟨ps, hps, rfl⟩ := map_ok_iff.mp h
    rw [not_not.mp hfunction] at htype
    exact ⟨htype, hname, mapM_inputs_ok_iff.mp hps⟩
  · rintro ⟨htype, hname, hinputs⟩
    rw [toFunction_of_named htype hname, mapM_inputs_ok_iff.mpr hinputs]
    rfl

theorem toFunction_error_iff : e.toFunction = .error fault ↔ e.Refused fault := by
  constructor
  · intro h
    unfold toFunction at h
    split at h
    · rename_i hnone
      obtain rfl := Except.error.inj h
      exact .noType hnone
    rename_i type htype
    split at h
    · rename_i hother
      obtain rfl := Except.error.inj h
      exact .otherType htype hother
    rename_i hfunction
    rw [not_not.mp hfunction] at htype
    split at h
    · rename_i hnone
      obtain rfl := Except.error.inj h
      exact .noName htype hnone
    rename_i name hname
    obtain ⟨k, hk⟩ := mapM_inputs_error_iff.mp (map_error_iff.mp h)
    exact .input htype hname hk
  · intro h
    cases h with
    | noType hnone => simp only [toFunction, hnone]
    | otherType htype hother => simp only [toFunction, htype, if_pos hother]
    | noName htype hnone => simp only [toFunction, htype, hnone, ne_eq, not_true_eq_false, if_false]
    | input htype hname hk =>
      rw [toFunction_of_named htype hname, map_error_iff, mapM_inputs_error_iff]
      exact ⟨_, hk⟩

theorem loadable_iff : (∃ f, e.toFunction = .ok f) ↔ e.Loadable := by
  constructor
  · rintro ⟨f, h⟩
    obtain ⟨htype, hname, hinputs⟩ := toFunction_ok_iff.mp h
    have hall := exists_mapM_iff.mp ⟨f.inputs, mapM_inputs_ok_iff.mpr hinputs⟩
    exact ⟨htype, ⟨f.name, hname⟩, fun input h => InputDescription.loadable_iff.mp (hall input h)⟩
  · rintro ⟨htype, ⟨name, hname⟩, hinputs⟩
    obtain ⟨ps, hps⟩ := exists_mapM_iff.mpr fun input h => InputDescription.loadable_iff.mpr (hinputs input h)
    rw [toFunction_of_named htype hname, hps]
    exact ⟨_, rfl⟩

end EntryDescription

namespace Interface

theorem parse_eq (h : entries? text = some es) : parse text = (es.mapM EntryDescription.toFunction).map fun fs => ⟨fs⟩ := by
  unfold parse
  rw [h]
  rfl

theorem parse_ok_iff (h : entries? text = some es) :
    parse text = .ok i ↔ List.Forall₂ EntryDescription.Loads es i.functions := by
  rw [parse_eq h, map_ok_iff]
  simp only [mapM_ok_iff, EntryDescription.toFunction_ok_iff]
  constructor
  · rintro ⟨fs, hfs, rfl⟩
    exact hfs
  · intro hi
    exact ⟨i.functions, hi, rfl⟩

theorem exists_parse_iff (h : entries? text = some es) : (∃ i, parse text = .ok i) ↔ ∀ e ∈ es, e.Loadable := by
  simp only [← EntryDescription.loadable_iff, ← exists_mapM_iff, parse_eq h, map_ok_iff]
  constructor
  · rintro ⟨-, fs, hfs, -⟩
    exact ⟨fs, hfs⟩
  · rintro ⟨fs, hfs⟩
    exact ⟨⟨fs⟩, fs, hfs, rfl⟩

theorem parse_error_iff (h : entries? text = some es) : parse text = .error fault ↔
    ∃ k, FirstRefused EntryDescription.Loadable EntryDescription.Refused es k fault := by
  rw [parse_eq h, map_error_iff, mapM_error_iff]
  apply exists_congr
  intro k
  exact firstRefused_congr (fun _ _ => EntryDescription.loadable_iff) fun _ _ => EntryDescription.toFunction_error_iff

/-- A document whose entries can be read is loaded if each of them describes a function. The interface
then has the functions of the entries, in their order, and all its types are well-formed. Otherwise the
fault is the one of the first entry that describes none. -/
theorem parse_entries (text : String) (es : List EntryDescription) (h : entries? text = some es) :
    (∃ ds, Draft.read? text = some (.array ds) ∧ List.Forall₂ EntryDescription.Describes ds es) ∧
    ((∃ i, parse text = .ok i) ↔ ∀ e ∈ es, e.Loadable) ∧
    (∀ i, parse text = .ok i ↔ List.Forall₂ EntryDescription.Loads es i.functions) ∧
    (∀ i, parse text = .ok i → ∀ f ∈ i.functions, ∀ t ∈ f.types, t.WellFormed) ∧
    ∀ fault, parse text = .error fault ↔
      ∃ k, FirstRefused EntryDescription.Loadable EntryDescription.Refused es k fault :=
  ⟨describes_of_entries? h, exists_parse_iff h, fun _ => parse_ok_iff h, fun _ => wellFormed_of_parse,
    fun _ => parse_error_iff h⟩

theorem parse_entries_defects :
    let loaded := "[\x7b\"name\":\"ping\",\"type\":\"function\",\"inputs\":null\x7d," ++
      "[\"set\",\"function\",[[\"x\",\"uint8\"],\x7b\"type\":\"bool\",\"indexed\":true\x7d]]"
    let defects := ",\x7b\"name\":\"get\",\"type\":\"function\",\"inputs\":" ++
      "[\x7b\"name\":\"a\"\x7d,\x7b\"type\":\"uint7\"\x7d]\x7d,\x7b\"type\":\"event\"\x7d"
    parse (loaded ++ "]") = .ok ⟨[⟨"ping", []⟩, ⟨"set", [⟨"x", .uint 8, false⟩, ⟨"", .bool, true⟩]⟩]⟩ ∧
      parse (loaded ++ defects ++ "]") = .error (.missingField .inputType) := by
  intro loaded defects
  let good : List EntryDescription := [⟨some "ping", some "function", []⟩,
    ⟨some "set", some "function", [⟨"x", some "uint8", false⟩, ⟨"", some "bool", true⟩]⟩]
  let bad : List EntryDescription := [⟨some "get", some "function", [⟨"a", none, false⟩, ⟨"", some "uint7", false⟩]⟩,
    ⟨none, some "event", []⟩]
  have hgood : entries? (loaded ++ "]") = some good := by decide +kernel
  have hbad : entries? (loaded ++ defects ++ "]") = some (good ++ bad) := by decide +kernel
  obtain ⟨-, hall, hok, -⟩ := parse_entries _ good hgood
  obtain ⟨-, -, -, -, herror⟩ := parse_entries _ (good ++ bad) hbad
  have hx : InputDescription.Loads ⟨"x", some "uint8", false⟩ ⟨"x", .uint 8, false⟩ :=
    ⟨rfl, rfl, "uint8", rfl, eq_ok_of_toOption (by decide +kernel)⟩
  have hflag : InputDescription.Loads ⟨"", some "bool", true⟩ ⟨"", .bool, true⟩ :=
    ⟨rfl, rfl, "bool", rfl, eq_ok_of_toOption (by decide +kernel)⟩
  have hparse : parse (loaded ++ "]") = .ok ⟨[⟨"ping", []⟩, ⟨"set", [⟨"x", .uint 8, false⟩, ⟨"", .bool, true⟩]⟩]⟩ :=
    (hok _).mpr (.cons ⟨rfl, rfl, .nil⟩ (.cons ⟨rfl, rfl, .cons hx (.cons hflag .nil)⟩ .nil))
  refine ⟨hparse, ?_⟩
  have hinput : InputDescription.Refused ⟨"a", none, false⟩ (.missingField .inputType) := .noType rfl
  have hentry : EntryDescription.Refused ⟨some "get", some "function", [⟨"a", none, false⟩, ⟨"", some "uint7", false⟩]⟩
      (.missingField .inputType) := .input rfl rfl (firstRefused_zero.mpr hinput)
  refine (herror _).mpr ⟨2, ⟨_, rfl, hentry⟩, ?_⟩
  intro j e hj he
  rw [List.getElem?_append_left hj] at he
  exact hall.mp ⟨_, hparse⟩ e (List.mem_of_getElem? he)

end Interface

end Calldata
