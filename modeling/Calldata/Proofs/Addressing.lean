import Calldata.Interface
import Calldata.Proofs.Canonical
import Calldata.Proofs.TypeGrammar

/-!
# Which function a call addresses

A call is encoded for the first function with a name and decoded for the first with a selector.
These differ only when an earlier function with another signature happens to have the same
selector, whatever hash the selectors come from.
-/

namespace Calldata

variable {f g : Function} {t : ParamType} {ts : List ParamType} {hash : HashFunction}

/-! ## Signatures -/

theorem bracket_notMem_types (ts : List ParamType) : '(' ∉ [','].intercalate (ts.map (·.nameChars)) := by
  induction ts with
  | nil => simp
  | cons t ts ih =>
    have ht : '(' ∉ t.nameChars := ParamType.notMem_nameChars (by decide) (by decide) (by decide) t
    cases ts with
    | nil => simpa using ht
    | cons u us =>
      simp only [List.map_cons, List.intercalate_cons_cons] at ih ⊢
      simp [ht, ih]

theorem front_unique {c : Char} {as bs xs ys : List Char} (hx : c ∉ xs) (hy : c ∉ ys)
    (h : as ++ c :: xs = bs ++ c :: ys) : as = bs := by
  rcases List.append_eq_append_iff.mp h with ⟨zs, rfl, hz⟩ | ⟨zs, rfl, hz⟩
  · cases zs with
    | nil => simp
    | cons z zs => simp_all
  · cases zs with
    | nil => simp
    | cons z zs => simp_all

theorem toList_signature (f : Function) :
    f.signature.toList = f.name.toList ++ '(' :: ([','].intercalate (f.types.map (·.nameChars)) ++ [')']) := by
  have htypes : f.types.map (String.toList ∘ ParamType.name) = f.types.map (·.nameChars) := by
    simp [ParamType.name, Function.comp_def]
  unfold Function.signature Function.signatureOf
  simp [String.toList_intercalate, ← htypes]

/-- Functions with one signature have one name, even if there are brackets in the names. -/
theorem name_eq_of_signature (h : f.signature = g.signature) : f.name = g.name := by
  have htext := congrArg String.toList h
  rw [toList_signature, toList_signature] at htext
  apply String.toList_inj.mp
  -- A name may have brackets, but the types have none, so the last one stands behind the name.
  refine front_unique ?_ ?_ htext
  · simp [bracket_notMem_types]
  · simp [bracket_notMem_types]

/-! ## Selectors -/

namespace Function

@[simp] theorem length_selector (f : Function) (hash : HashFunction) : (f.selector hash).length = selectorSize := by
  unfold selector selectorOf
  rw [List.length_take, (hash _).length_bytes]
  rfl

@[simp] theorem take_selector (f : Function) (hash : HashFunction) (b : Bytes) :
    (f.selector hash ++ b).take selectorSize = f.selector hash := List.take_left' (length_selector f hash)

@[simp] theorem drop_selector (f : Function) (hash : HashFunction) (b : Bytes) :
    (f.selector hash ++ b).drop selectorSize = b := List.drop_left' (length_selector f hash)

theorem encodeCall_iff {args : List Value} {call : Bytes} :
    f.encodeCall args hash = .ok call ↔ ∃ b, encode f.types args = .ok b ∧ f.selector hash ++ b = call := by
  unfold encodeCall encodeArguments
  exact map_ok_iff

@[simp] theorem splitCall_selector (f : Function) (hash : HashFunction) (b : Bytes) :
    splitCall (f.selector hash ++ b) = .ok (f.selector hash, b) := by
  unfold splitCall
  rw [if_neg (by simp)]
  simp

theorem decodeCall_append (f : Function) (hash : HashFunction) (b : Bytes) :
    f.decodeCall (f.selector hash ++ b) hash = f.decodeArguments b := by
  unfold decodeCall
  simp

end Function

/-! ## The first of several functions -/

/-- The function is the first of the interface with the property. -/
structure FirstAt (i : Interface) (P : Function → Prop) (place : Nat) (f : Function) : Prop where
  here : i.functions[place]? = some f
  property : P f
  first (k : Nat) (g : Function) (hk : k < place) (hg : i.functions[k]? = some g) : ¬ P g

namespace Interface

variable {i : Interface} {name : String} {p : Nat} {P : Function → Prop}

theorem firstAt_of_find [DecidablePred P] (h : i.functions.find? (P ·) = some f) : ∃ p, FirstAt i P p f := by
  obtain ⟨hP, p, hp, hf, hfirst⟩ := List.find?_eq_some_iff_getElem.mp h
  refine ⟨p, ?_, by simpa using hP, fun k g hk hg => ?_⟩
  · rw [List.getElem?_eq_getElem hp, hf]
  · obtain ⟨hlt, rfl⟩ := List.getElem?_eq_some_iff.mp hg
    simpa using hfirst k hk

theorem exists_find [DecidablePred P] (hf : i.functions[p]? = some f) (hP : P f) :
    ∃ g q, i.functions.find? (P ·) = some g ∧ FirstAt i P q g ∧ q ≤ p := by
  have hmem : f ∈ i.functions := List.mem_of_getElem? hf
  have hsome : (i.functions.find? (P ·)).isSome := List.find?_isSome.mpr ⟨f, hmem, by simpa using hP⟩
  obtain ⟨g, hg⟩ := Option.isSome_iff_exists.mp hsome
  obtain ⟨q, hq⟩ := firstAt_of_find hg
  refine ⟨g, q, hg, hq, Nat.le_of_not_lt fun hlt => ?_⟩
  exact hq.first p f hlt hf hP

/-- Of the functions with the selector of the first with a name, the first is that one, or stands in
front of it, with another name and another signature. -/
theorem selected_of_named (h : FirstAt i (·.name = name) p f) (hash : HashFunction) :
    ∃ g q, i.selected? (f.selector hash) hash = some g ∧
      FirstAt i (·.selector hash = f.selector hash) q g ∧
      ((q = p ∧ g = f) ∨ (q < p ∧ g.name ≠ f.name ∧ g.signature ≠ f.signature)) := by
  obtain ⟨g, q, hg, hq, hle⟩ := exists_find (P := (·.selector hash = f.selector hash)) h.here rfl
  refine ⟨g, q, hg, hq, ?_⟩
  rcases Nat.eq_or_lt_of_le hle with rfl | hlt
  · exact .inl ⟨rfl, Option.some.inj (hq.here.symm.trans h.here)⟩
  · have hname : g.name ≠ f.name := fun heq => h.first q g hlt hq.here (heq.trans h.property)
    exact .inr ⟨hlt, hname, fun heq => hname (name_eq_of_signature heq)⟩

theorem encodeCall_iff {args : List Value} {call : Bytes} :
    i.encodeCall name args hash = .ok call ↔
      ∃ f, i.named? name = some f ∧ f.encodeCall args hash = .ok call := by
  unfold encodeCall
  cases i.named? name with
  | none => simp
  | some f => simp

theorem decodeCall_append {b : Bytes} (h : i.selected? (f.selector hash) hash = some g) :
    i.decodeCall (f.selector hash ++ b) hash = (g.decodeArguments b).map (g, ·) := by
  unfold decodeCall
  simp [h]

/-- A call that is encoded by name is decoded by its selector as a call of the function with that
name, unless an earlier function with another signature has the same selector. The arguments come
back when they are in the form of their types and the call fits into memory. -/
theorem decodeCall_encodeCall (hash : HashFunction) (i : Interface) (name : String) (args : List Value)
    (call : Bytes) (h : i.encodeCall name args hash = .ok call) :
    ∃ f p, i.named? name = some f ∧ FirstAt i (·.name = name) p f ∧
      call.take selectorSize = f.selector hash ∧
      f.decodeCall call hash = f.decodeArguments (call.drop selectorSize) ∧
      ∃ g q, i.selected? (call.take selectorSize) hash = some g ∧
        FirstAt i (·.selector hash = call.take selectorSize) q g ∧
        i.decodeCall call hash = (g.decodeArguments (call.drop selectorSize)).map (g, ·) ∧
        ((q = p ∧ g = f) ∨ (q < p ∧ g.name ≠ f.name ∧ g.signature ≠ f.signature ∧
          g.selector hash = f.selector hash)) ∧
        (g = f → (∀ t ∈ f.types, t.WellFormed ∧ t.FunctionFree) → List.Forall₂ Typed f.types args →
          call.length < 2 ^ 63 → i.decodeCall call hash = .ok (f, args)) := by
  obtain ⟨f, hf, henc⟩ := encodeCall_iff.mp h
  obtain ⟨b, hb, rfl⟩ := Function.encodeCall_iff.mp henc
  obtain ⟨p, hp⟩ := firstAt_of_find hf
  obtain ⟨g, q, hg, hq, hwhere⟩ := selected_of_named hp hash
  have hdecode := decodeCall_append (b := b) hg
  rw [Function.take_selector, Function.drop_selector]
  refine ⟨f, p, hf, hp, rfl, Function.decodeCall_append f hash b, g, q, hg, hq, hdecode, ?_, ?_⟩
  · exact hwhere.imp_right fun ⟨hlt, hname, hsignature⟩ => ⟨hlt, hname, hsignature, hq.property⟩
  · rintro rfl htypes hargs hlen
    have hlen' : b.length < 2 ^ 63 := by
      rw [List.length_append] at hlen
      omega
    rw [hdecode]
    unfold Function.decodeArguments
    rw [decode_of_typed htypes hargs hb hlen']
    rfl

/-- With a hash of the first letter alone, a call of `apply` is taken for one of `approve`, and the
second `transfer` plays no part. -/
theorem decodeCall_encodeCall_colliding :
    let hash : HashFunction := fun bs => ⟨List.replicate 32 (bs.headD 0), by simp [IdKind.size]⟩
    let function (name : String) (types : List ParamType) : Function := ⟨name, types.map (⟨"", ·, false⟩)⟩
    let approve := function "approve" [.bool]
    let transfer := function "transfer" [.uint 8]
    let i : Interface := ⟨[approve, function "apply" [.uint 8], transfer, function "transfer" [.string]]⟩
    i.decodeCall (List.replicate 4 97 ++ bigEndian wordSize 7) hash = .ok (approve, [.bool true]) ∧
      i.encodeCall "apply" [.uint 7] hash = .ok (List.replicate 4 97 ++ bigEndian wordSize 7) ∧
      i.encodeCall "transfer" [.uint 7] hash = .ok (List.replicate 4 116 ++ bigEndian wordSize 7) ∧
      i.decodeCall (List.replicate 4 116 ++ bigEndian wordSize 7) hash = .ok (transfer, [.uint 7]) := by
  intro hash function approve transfer i
  have happly : i.encodeCall "apply" [.uint 7] hash = .ok (List.replicate 4 97 ++ bigEndian wordSize 7) :=
    eq_ok_of_toOption (by decide +kernel)
  have htransfer : i.encodeCall "transfer" [.uint 7] hash = .ok (List.replicate 4 116 ++ bigEndian wordSize 7) :=
    eq_ok_of_toOption (by decide +kernel)
  refine ⟨?_, happly, htransfer, ?_⟩
  · obtain ⟨f, p, hf, hp, htake, hcall, g, q, hg, hq, hdecode, -, -⟩ :=
      decodeCall_encodeCall hash i "apply" [.uint 7] _ happly
    have hselected : i.selected? (List.replicate 4 97) hash = some approve := by decide +kernel
    obtain rfl : g = approve := Option.some.inj (hg.symm.trans hselected)
    rw [hdecode]
    exact eq_ok_of_toOption (by decide +kernel)
  · obtain ⟨f, p, hf, -, -, -, g, q, hg, -, -, -, hvalues⟩ :=
      decodeCall_encodeCall hash i "transfer" [.uint 7] _ htransfer
    have hnamed : i.named? "transfer" = some transfer := by decide +kernel
    have hselected : i.selected? (List.replicate 4 116) hash = some transfer := by decide +kernel
    obtain rfl : f = transfer := Option.some.inj (hf.symm.trans hnamed)
    obtain rfl : g = transfer := Option.some.inj (hg.symm.trans hselected)
    refine hvalues rfl ?_ ?_ ?_
    · simp [transfer, function, Function.types, ParamType.WellFormed, ParamType.FunctionFree, ParamType.IsWidth]
    · simp [transfer, function, Function.types, Typed]
    · decide +kernel

end Interface

end Calldata
