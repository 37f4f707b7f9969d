import Calldata.Proofs.ShownValues

/-!
# Values survive being shown

Values in the form of their types can be shown in JSON and read again under the types: what is read
need not be the same values, for numbers and identifiers come back as literals, but whatever encodes
the one list encodes the other.
-/

namespace Calldata

variable {t elem : ParamType} {ts : List ParamType} {v : Value} {vs items : List Value} {e : Bytes}

/-- The JSON of the value is read as one that is encoded, or refused, like the value itself. -/
def ReadsAlike (t : ParamType) (v : Value) : Prop :=
  ∃ w, Value.ofJson t v.toJson = .ok w ∧ encodeValue t w = encodeValue t v

theorem ReadsBack.alike (hback : ReadsBack t v e) (h : encodeValue t v = .ok e) : ReadsAlike t v := by
  obtain ⟨w, hw, he⟩ := hback
  exact ⟨w, hw, he.trans h.symm⟩

theorem readsAlike_fields (ht : ∀ t ∈ ts, ∀ v, Typed t v → ReadsAlike t v) (hv : List.Forall₂ Typed ts vs) :
    ∃ ws, readFields ts (vs.map Value.toJson) = .ok ws ∧ ws.length = vs.length ∧ encode ts ws = encode ts vs := by
  have hfields : ∃ ws, readFields ts (vs.map Value.toJson) = .ok ws ∧ ws.length = vs.length ∧
      fields ts ws = fields ts vs := by
    induction hv with
    | nil => exact ⟨[], rfl, rfl, rfl⟩
    | @cons t v ts vs hv hvs ih =>
      obtain ⟨w, hw, hencodes⟩ := ht t List.mem_cons_self v hv
      obtain ⟨ws, hws, hlen, hrest⟩ := ih fun u hu => ht u (List.mem_cons_of_mem t hu)
      refine ⟨w :: ws, readFields_cons hw hws, by rw [List.length_cons, List.length_cons, hlen], ?_⟩
      rw [fields_cons, fields_cons, hencodes, hrest]
  obtain ⟨ws, hws, hlen, hrest⟩ := hfields
  refine ⟨ws, hws, hlen, ?_⟩
  rw [encode_of_length hv.length_eq, encode_of_length (hv.length_eq.trans hlen.symm), hrest]

theorem readsAlike_items (ht : ∀ v, Typed elem v → ReadsAlike elem v)
    (hv : List.Forall₂ Typed (List.replicate items.length elem) items) :
    ∃ ws, (items.map Value.toJson).mapM (Value.ofJson elem) = .ok ws ∧ ws.length = items.length ∧
      encode (List.replicate items.length elem) ws = encode (List.replicate items.length elem) items := by
  obtain ⟨ws, hws, hlen, hencodes⟩ := readsAlike_fields (ParamType.forall_items ht) hv
  refine ⟨ws, ?_, hlen, hencodes⟩
  rw [← readFields_replicate, List.length_map, hws]

theorem ofJson_array (elem : ParamType) (n : Nat) (items : List Value) :
    Value.ofJson (.fixedArray elem n) (Value.array items).toJson =
        ((items.map Value.toJson).mapM (Value.ofJson elem)).map .array ∧
      Value.ofJson (.array elem) (Value.array items).toJson =
        ((items.map Value.toJson).mapM (Value.ofJson elem)).map .array := by
  rw [Value.toJson, listToJson_eq, Value.ofJson, Value.ofJson]
  exact ⟨rfl, rfl⟩

theorem readsAlike (hw : t.WellFormed) (hv : Typed t v) : ReadsAlike t v := by
  induction t using ParamType.codecInduction generalizing v with
  | scalar t ht =>
    obtain ⟨w, hword, -⟩ := encodeValue_scalar ht hw hv
    exact (readsBack hv hword).alike hword
  | function =>
    cases v with
    | bytes bs =>
      have hword : encodeValue .function (.bytes bs) = .ok (padRight wordSize bs) :=
        Scalar.encodeFunction_iff.mpr ⟨bs, rfl, hv, rfl⟩
      exact (readsBack_of_bytes (.inr rfl) hword).alike hword
    | _ => exact hv.elim
  | bytes =>
    cases v with
    | bytes bs => exact (readsBack_of_bytes (.inl rfl) rfl).alike rfl
    | _ => exact hv.elim
  | string =>
    cases v with
    | string s => exact ⟨.string s, rfl, rfl⟩
    | _ => exact hv.elim
  | fixedArray elem n ih =>
    obtain ⟨items, rfl, rfl, hitems⟩ := typed_fixedArray_iff.mp hv
    obtain ⟨ws, hws, hlen, hencodes⟩ := readsAlike_items (fun _ => ih hw.1) hitems
    refine ⟨.array ws, ?_, ?_⟩
    · rw [(ofJson_array elem _ items).1, hws]
      rfl
    · rw [encodeValue_fixedArray, encodeValue_fixedArray, hlen, hencodes]
  | array elem ih =>
    obtain ⟨items, rfl, hitems⟩ := typed_array_iff.mp hv
    obtain ⟨ws, hws, hlen, hencodes⟩ := readsAlike_items (fun _ => ih hw) hitems
    refine ⟨.array ws, ?_, ?_⟩
    · rw [(ofJson_array elem 0 items).2, hws]
      rfl
    · rw [encodeValue_array, encodeValue_array, hlen, hencodes]

/-- Values in the form of their types can be shown in JSON and be read as arguments of the types, and
what is read has the same encoding. -/
theorem encode_shown (types : List ParamType) (htypes : ∀ t ∈ types, t.WellFormed) (values : List Value)
    (hvalues : List.Forall₂ Typed types values) :
    ∃ ws, Value.ofJsonArguments types (.array (values.map Value.toJson)) = .ok ws ∧
      encode types ws = encode types values := by
  obtain ⟨ws, hws, -, hencodes⟩ := readsAlike_fields (fun t ht _ => readsAlike (htypes t ht)) hvalues
  refine ⟨ws, ?_, hencodes⟩
  rw [ofJsonArguments_array (by simpa using hvalues.length_eq), hws]

theorem encode_shown_nested :
    let types := [ParamType.int 16, .string, .fixedArray (.array .function) 2]
    let reference := List.replicate 24 (0xab : UInt8)
    let values := [Value.int (Signed.ofInt (-32768)), .string "0x10",
      .array [.array [.bytes reference], .array []]]
    let b := bigEndian wordSize (2 ^ 256 - 32768) ++ bigEndian wordSize 96 ++ bigEndian wordSize 160 ++
      Payload.encodeBlob [0x30, 0x78, 0x31, 0x30] ++ bigEndian wordSize 64 ++ bigEndian wordSize 128 ++
      bigEndian wordSize 1 ++ padRight wordSize reference ++ bigEndian wordSize 0
    ((∀ t ∈ types, t.WellFormed) ∧ List.Forall₂ Typed types values ∧ encode types values = .ok b) ∧
    ∃ ws, Value.ofJsonArguments types (.array [.string "-32768", .string "0x10",
        .array [.array [.string (Hex.marked reference)], .array []]]) = .ok ws ∧
      encode types ws = .ok b := by
  intro types reference values b
  have htypes : ∀ t ∈ types, t.WellFormed := by
    simp [types, ParamType.WellFormed, ParamType.IsWidth, ParamType.IsArrayLength, maxSize]
  have hvalues : List.Forall₂ Typed types values := by
    simp [types, values, Typed, functionSize, reference]
    decide
  have henc : encode types values = .ok b := eq_ok_of_toOption (by decide +kernel)
  have htext : (Signed.ofInt (-32768)).text = "-32768" := by decide +kernel
  obtain ⟨ws, hws, hencodes⟩ := encode_shown types htypes values hvalues
  simp only [values, List.map_cons, List.map_nil, Value.toJson, Value.listToJson, htext] at hws
  exact ⟨⟨htypes, hvalues, henc⟩, ws, hws, hencodes.trans henc⟩

end Calldata
