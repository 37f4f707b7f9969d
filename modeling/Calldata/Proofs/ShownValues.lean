import Calldata.Proofs.Addressing
import Calldata.Proofs.Descriptions
import Calldata.Proofs.Offsets
import Calldata.Proofs.Spelling

/-!
# Shown values as arguments

A decoded value is shown in JSON that can be given as an argument again: whatever way the argument
was spelled at first, its new spelling has the same encoding.
-/

namespace Calldata

variable {t elem : ParamType} {ts : List ParamType} {v : Value} {vs items : List Value} {e b : Bytes}
  {ps : List Tuple.Part} {i : Interface} {f : Function}

/-! ## One value -/

@[simp] theorem Identifier.ofText_text {k : IdKind} (id : Identifier k) : Identifier.ofText k id.text = .ok id := by
  obtain ⟨bs, hlen⟩ := id
  unfold Identifier.ofText Identifier.text
  rw [Hex.ofText_marked]
  exact dif_pos hlen

@[simp] theorem Scalar.bytesOfText_marked (t : ParamType) (bs : Bytes) : bytesOfText t (Hex.marked bs) = .ok bs := by
  unfold bytesOfText
  simp

/-- The JSON of the value is read as one that has the same encoding. -/
def ReadsBack (t : ParamType) (v : Value) (e : Bytes) : Prop :=
  ∃ w, Value.ofJson t v.toJson = .ok w ∧ encodeValue t w = .ok e

theorem readsBack_int {bits : Nat} (hv : Typed (.int bits) v) (h : encodeValue (.int bits) v = .ok e) :
    ReadsBack (.int bits) v e := by
  cases v with
  | int i =>
    obtain ⟨hw, j, hj, hfits, he⟩ := Scalar.encodeInt_iff.mp h
    obtain rfl : i = j := Except.ok.inj hj
    exact ⟨.string i.text, rfl, Scalar.encodeInt_iff.mpr ⟨hw, i, Signed.ofLiteral_text i, hfits, he⟩⟩
  | _ => exact hv.elim

theorem readsBack_uint {bits : Nat} (hv : Typed (.uint bits) v) (h : encodeValue (.uint bits) v = .ok e) :
    ReadsBack (.uint bits) v e := by
  cases v with
  | uint w =>
    obtain ⟨hw, j, hj, hsign, hlt, he⟩ := Scalar.encodeUint_iff.mp h
    have hliteral : Scalar.integerOf (.uint bits) (.string (decimal w.toNat)) = .ok j :=
      (Signed.ofLiteral_decimal w).trans hj
    exact ⟨.string (decimal w.toNat), rfl, Scalar.encodeUint_iff.mpr ⟨hw, j, hliteral, hsign, hlt, he⟩⟩
  | _ => exact hv.elim

theorem readsBack_identifier {k : IdKind} (hv : Typed (.identifier k) v)
    (h : encodeValue (.identifier k) v = .ok e) : ReadsBack (.identifier k) v e := by
  cases v with
  | identifier l id =>
    obtain rfl : l = k := hv
    obtain ⟨id', hid, he⟩ := Scalar.encodeIdentifier_iff.mp h
    obtain rfl : id = id' := by simpa [Scalar.identifierOf] using hid
    have htext : Scalar.identifierOf l (.string id.text) = .ok id := by
      unfold Scalar.identifierOf
      simp
    exact ⟨.string id.text, rfl, Scalar.encodeIdentifier_iff.mpr ⟨id, htext, he⟩⟩
  | _ => exact hv.elim

theorem readsBack_bytes32 (hv : Typed .bytes32 v) (h : encodeValue .bytes32 v = .ok e) :
    ReadsBack .bytes32 v e := by
  cases v with
  | bytes bs =>
    obtain ⟨bs', hbs, hle, -, he⟩ := Scalar.encodeBytes32_iff.mp h
    obtain rfl : bs = bs' := Except.ok.inj hbs
    -- A literal has to have all of its 32 bytes, and the text does.
    refine ⟨.string (Hex.marked bs), rfl, Scalar.encodeBytes32_iff.mpr ⟨bs, ?_, hle, fun _ => hv, he⟩⟩
    exact Scalar.bytesOfText_marked .bytes32 bs
  | _ => exact hv.elim

theorem readsBack_of_bytes {bs : Bytes} (ht : t = .bytes ∨ t = .function)
    (h : encodeValue t (.bytes bs) = .ok e) : ReadsBack t (.bytes bs) e := by
  refine ⟨.bytes bs, ?_, h⟩
  rcases ht with rfl | rfl
  · simp [Value.toJson, Value.ofJson, Except.map]
  · simp [Value.toJson, Value.ofJson, Except.map]

theorem readsBack_scalar (ht : t.isScalar = true) (hv : Typed t v) (h : encodeValue t v = .ok e) :
    ReadsBack t v e := by
  cases t with
  | int bits => exact readsBack_int hv h
  | uint bits => exact readsBack_uint hv h
  | bool =>
    cases v with
    | bool b => exact ⟨.bool b, rfl, h⟩
    | _ => exact hv.elim
  | identifier k => exact readsBack_identifier hv h
  | bytes32 => exact readsBack_bytes32 hv h
  | function | bytes | string | fixedArray | array => simp [ParamType.isScalar] at ht

/-! ## Tuples and arrays -/

theorem listToJson_eq (items : List Value) : Value.listToJson items = items.map Value.toJson := by
  induction items with
  | nil => rfl
  | cons v items ih => rw [Value.listToJson, ih, List.map_cons]

def readFields (ts : List ParamType) (js : List Json) : Except Fault (List Value) :=
  (ts.zip js).mapM fun (t, j) => Value.ofJson t j

theorem readFields_cons {j : Json} {js : List Json} {w : Value} {ws : List Value}
    (first : Value.ofJson t j = .ok w) (rest : readFields ts js = .ok ws) :
    readFields (t :: ts) (j :: js) = .ok (w :: ws) := by
  unfold readFields at *
  rw [List.zip_cons_cons, mapM_ok_iff]
  exact .cons first (mapM_ok_iff.mp rest)

theorem readFields_replicate (elem : ParamType) (js : List Json) :
    readFields (List.replicate js.length elem) js = js.mapM (Value.ofJson elem) := by
  unfold readFields
  induction js with
  | nil => rfl
  | cons j js ih => rw [List.length_cons, List.replicate_succ, List.zip_cons_cons, List.mapM_cons, List.mapM_cons, ih]

theorem readsBack_fields (ht : ∀ t ∈ ts, ∀ v e, Typed t v → encodeValue t v = .ok e → ReadsBack t v e)
    (hv : List.Forall₂ Typed ts vs) (h : Parts ts vs ps) :
    ∃ ws, readFields ts (vs.map Value.toJson) = .ok ws ∧ Parts ts ws ps := by
  induction h with
  | nil => exact ⟨[], rfl, .nil⟩
  | @cons t v e ts vs ps first rest ih =>
    obtain ⟨hv, hvs⟩ := List.forall₂_cons.mp hv
    obtain ⟨w, hw, he⟩ := ht t List.mem_cons_self v e hv first
    obtain ⟨ws, hws, hps⟩ := ih (fun u hu => ht u (List.mem_cons_of_mem t hu)) hvs
    exact ⟨w :: ws, readFields_cons hw hws, .cons he hps⟩

theorem readsBack_tuple (ht : ∀ t ∈ ts, ∀ v e, Typed t v → encodeValue t v = .ok e → ReadsBack t v e)
    (hv : List.Forall₂ Typed ts vs) (h : encode ts vs = .ok b) :
    ∃ ws, readFields ts (vs.map Value.toJson) = .ok ws ∧ encode ts ws = .ok b := by
  obtain ⟨hmax, ps, hps, hb⟩ := encode_ok_iff.mp h
  obtain ⟨ws, hws, hps'⟩ := readsBack_fields ht hv hps
  exact ⟨ws, hws, encode_ok_iff.mpr ⟨hmax, ps, hps', hb⟩⟩

theorem readsBack_items (ht : ∀ v e, Typed elem v → encodeValue elem v = .ok e → ReadsBack elem v e)
    (hv : List.Forall₂ Typed (List.replicate items.length elem) items)
    (h : encode (List.replicate items.length elem) items = .ok b) :
    ∃ ws, (items.map Value.toJson).mapM (Value.ofJson elem) = .ok ws ∧ ws.length = items.length ∧
      encode (List.replicate items.length elem) ws = .ok b := by
  obtain ⟨ws, hws, henc⟩ := readsBack_tuple (ParamType.forall_items ht) hv h
  obtain ⟨-, ps, hps, -⟩ := encode_ok_iff.mp henc
  have hlen := hps.length_eq
  rw [List.length_replicate] at hlen
  rw [← readFields_replicate, List.length_map]
  exact ⟨ws, hws, hlen.symm, henc⟩

theorem readsBack (hv : Typed t v) (h : encodeValue t v = .ok e) : ReadsBack t v e := by
  induction t using ParamType.codecInduction generalizing v e with
  | scalar t ht => exact readsBack_scalar ht hv h
  | function =>
    cases v with
    | bytes bs => exact readsBack_of_bytes (.inr rfl) h
    | _ => exact hv.elim
  | bytes =>
    cases v with
    | bytes bs => exact readsBack_of_bytes (.inl rfl) h
    | _ => exact hv.elim
  | string =>
    cases v with
    | string s => exact ⟨.string s, rfl, h⟩
    | _ => exact hv.elim
  | fixedArray elem n ih =>
    obtain ⟨items, rfl, rfl, hitems, henc⟩ := fixedArray_of_typed hv h
    obtain ⟨ws, hws, hlen, henc'⟩ := readsBack_items (fun _ _ => ih) hitems henc
    refine ⟨.array ws, ?_, encode_fixedArray_iff.mpr ⟨ws, rfl, hlen, henc'⟩⟩
    rw [Value.toJson, listToJson_eq, Value.ofJson, hws]
    rfl
  | array elem ih =>
    obtain ⟨items, b, rfl, hitems, henc, heq⟩ := array_of_typed hv h
    obtain ⟨ws, hws, hlen, henc'⟩ := readsBack_items (fun _ _ => ih) hitems henc
    rw [← hlen] at henc' heq
    refine ⟨.array ws, ?_, encode_array_iff.mpr ⟨ws, b, rfl, henc', heq⟩⟩
    rw [Value.toJson, listToJson_eq, Value.ofJson, hws]
    rfl

/-! ## Calls -/

/-- Encodes a call of the function with arguments in JSON. -/
def Function.encodeJson (f : Function) (arguments : Json) : Except Fault Bytes := do
  let values ← Value.ofJsonArguments f.types arguments
  f.encodeCall values

theorem Function.encodeJson_iff {arguments : Json} {call : Bytes} :
    f.encodeJson arguments = .ok call ↔
      ∃ values, Value.ofJsonArguments f.types arguments = .ok values ∧ f.encodeCall values = .ok call := by
  unfold encodeJson
  cases Value.ofJsonArguments f.types arguments with
  | error e => simp [bind, Except.bind]
  | ok values => simp [bind, Except.bind]

theorem Guarded.encodeCall_of_ok {args : List Value} {call : Bytes} (h : f.encodeCall args = .ok call)
    (hlen : call.length ≤ maxSize) : Guarded.encodeCall f args = .ok call := by
  obtain ⟨b, hb, rfl⟩ := Function.encodeCall_iff.mp h
  rw [List.length_append] at hlen
  have hguarded : Guarded.encode f.types args = .ok b :=
    encode_machine_of_ok (fun _ _ _ _ => encodeValue_machine_of_ok) hb (by omega)
  unfold encodeCall encodeArguments
  rw [hguarded]
  rfl

theorem Cli.encodeText_of_encodeJson {name arguments : String} {j : Json} {call : Bytes}
    (hname : i.named? name = some f) (hj : Json.read? arguments = some j) (h : f.encodeJson j = .ok call)
    (hlen : call.length ≤ maxSize) : Cli.encodeText i name arguments = .ok (f, call) := by
  obtain ⟨values, hvalues, hcall⟩ := Function.encodeJson_iff.mp h
  unfold Cli.encodeText
  simp [hname, hj, hvalues, Guarded.encodeCall_of_ok hcall hlen, Except.map, Except.mapError]

theorem ofJsonArguments_array {js : List Json} (hlen : ts.length = js.length) :
    Value.ofJsonArguments ts (.array js) = readFields ts js := by
  unfold Value.ofJsonArguments readFields
  simp [hlen]

theorem Cli.decodeText_marked (i : Interface) (call : Bytes) :
    Cli.decodeText i (Hex.marked call) = (i.decodeCall call).mapError .codec := by
  unfold Cli.decodeText
  rw [payloadOf_marked]

/-- What decoding shows can be given to encoding again, in whatever way the arguments were spelled
at first. A call that was encoded, and fits into memory, is decoded as a call of the same function,
and the JSON of the decoded values is encoded as the same call, from any text that is read as it. -/
theorem encodeJson_shown (description : String) (i : Interface) (hi : Interface.parse description = .ok i)
    (name : String) (f : Function) (hname : i.named? name = some f) (hselector : i.selected? f.selector = some f)
    (hfree : ∀ t ∈ f.types, t.FunctionFree) (arguments : Json) (call : Bytes)
    (h : f.encodeJson arguments = .ok call) (hlen : call.length < 2 ^ 63) :
    ∃ values, Cli.decodeText i (Hex.marked call) = .ok (f, values) ∧
      f.encodeJson (.array (values.map Value.toJson)) = .ok call ∧
      ∀ text, Json.read? text = some (.array (values.map Value.toJson)) →
        Cli.encodeText i name text = .ok (f, call) := by
  obtain ⟨literals, -, hcall⟩ := Function.encodeJson_iff.mp h
  obtain ⟨b, hb, rfl⟩ := Function.encodeCall_iff.mp hcall
  have hmem : f ∈ i.functions := List.mem_of_find?_eq_some hname
  have htypes : ∀ t ∈ f.types, t.WellFormed ∧ t.FunctionFree :=
    fun t ht => ⟨Interface.wellFormed_of_parse hi f hmem t ht, hfree t ht⟩
  have hlen' : b.length < 2 ^ 63 := by
    rw [List.length_append] at hlen
    omega
  -- The encoding is that of values in the form of the types, which are what it is decoded to.
  obtain ⟨values, hvalues, henc⟩ := represented_tuple (fun _ _ _ _ => represented_of_ok) hb
  have hdecode : i.decodeCall (f.selector ++ b) = .ok (f, values) := by
    rw [Interface.decodeCall_append hselector]
    unfold Function.decodeArguments
    rw [decode_of_typed htypes hvalues henc hlen']
    rfl
  obtain ⟨ws, hws, henc'⟩ := readsBack_tuple (fun _ _ _ _ => readsBack) hvalues henc
  have hagain : f.encodeJson (.array (values.map Value.toJson)) = .ok (f.selector ++ b) := by
    refine Function.encodeJson_iff.mpr ⟨ws, ?_, Function.encodeCall_iff.mpr ⟨b, henc', rfl⟩⟩
    rw [ofJsonArguments_array (by simpa using hvalues.length_eq), hws]
  refine ⟨values, ?_, hagain, fun text htext => ?_⟩
  · rw [Cli.decodeText_marked, hdecode]
    rfl
  · exact Cli.encodeText_of_encodeJson hname htext hagain (by simp only [maxSize]; omega)

theorem encodeJson_shown_spellings :
    let description := "[[\"pay\", \"function\", [[\"to\", \"tokenStandard\"], [\"sums\", \"int16[][1]\"], " ++
      "[\"now\", \"bool\"], [\"note\", \"bytes\"]]]]"
    let pay : Function := ⟨"pay", [⟨"to", .identifier .token, false⟩,
      ⟨"sums", .fixedArray (.array (.int 16)) 1, false⟩, ⟨"now", .bool, false⟩, ⟨"note", .bytes, false⟩]⟩
    let i : Interface := ⟨[pay]⟩
    let arguments := Json.array [.string "000102030405060708FF",
      .array [.array [.string "-0x1f", .integer 3]], .integer 1, .string "beef"]
    let token : Identifier .token := ⟨[0, 1, 2, 3, 4, 5, 6, 7, 8, 255], rfl⟩
    let b := padLeft wordSize token.bytes ++ bigEndian wordSize 128 ++ bigEndian wordSize 1 ++
      bigEndian wordSize 256 ++ bigEndian wordSize 32 ++ bigEndian wordSize 2 ++
      bigEndian wordSize (2 ^ 256 - 31) ++ bigEndian wordSize 3 ++ Payload.encodeBlob [0xbe, 0xef]
    let shown := [Value.identifier .token token,
      .array [.array [.int (Signed.ofInt (-31)), .int (Signed.ofInt 3)]], .bool true, .bytes [0xbe, 0xef]]
    (Interface.parse description = .ok i ∧ i.named? "pay" = some pay ∧ i.selected? pay.selector = some pay ∧
      (∀ t ∈ pay.types, t.FunctionFree) ∧ pay.encodeJson arguments = .ok (pay.selector ++ b) ∧
      (pay.selector ++ b).length < 2 ^ 63) ∧
    Cli.decodeText i (Hex.marked (pay.selector ++ b)) = .ok (pay, shown) ∧
    pay.encodeJson (.array (shown.map Value.toJson)) = .ok (pay.selector ++ b) := by
  intro description pay i arguments token b shown
  have hparse : Interface.parse description = .ok i := eq_ok_of_toOption (by decide +kernel)
  have hname : i.named? "pay" = some pay := by decide +kernel
  have hselector : i.selected? pay.selector = some pay := by simp [Interface.selected?, i]
  have hfree : ∀ t ∈ pay.types, t.FunctionFree := by simp [pay, Function.types, ParamType.FunctionFree]
  let values := [Value.string "000102030405060708FF", .array [.array [.string "-0x1f", .uint 3]], .uint 1,
    .bytes [0xbe, 0xef]]
  have hvalues : Value.ofJsonArguments pay.types arguments = .ok values := eq_ok_of_toOption (by decide +kernel)
  have henc : encode pay.types values = .ok b := eq_ok_of_toOption (by decide +kernel)
  have hdec : decode pay.types b = .ok shown := eq_ok_of_toOption (by decide +kernel)
  have hcall : pay.encodeJson arguments = .ok (pay.selector ++ b) :=
    Function.encodeJson_iff.mpr ⟨values, hvalues, Function.encodeCall_iff.mpr ⟨b, henc, rfl⟩⟩
  have hb : b.length < 2 ^ 62 := by decide +kernel
  have hlen : (pay.selector ++ b).length < 2 ^ 63 := by
    rw [List.length_append, Function.length_selector, selectorSize]
    omega
  obtain ⟨decoded, hdecoded, hagain, -⟩ :=
    encodeJson_shown description i hparse "pay" pay hname hselector hfree arguments _ hcall hlen
  have hshown : Cli.decodeText i (Hex.marked (pay.selector ++ b)) = .ok (pay, shown) := by
    rw [Cli.decodeText_marked, Interface.decodeCall_append hselector]
    unfold Function.decodeArguments
    rw [hdec]
    rfl
  obtain rfl : decoded = shown := by
    have heq := Except.ok.inj (hdecoded.symm.trans hshown)
    exact (Prod.mk.inj heq).2
  exact ⟨⟨hparse, hname, hselector, hfree, hcall, hlen⟩, hshown, hagain⟩

end Calldata
