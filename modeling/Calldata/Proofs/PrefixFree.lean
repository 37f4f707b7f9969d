import Calldata.Proofs.Standing

/-!
# No encoding is the start of another

Where an encoding stands, only one value of its type can stand, even one that no decode gives back.
Both encodings are followed at once: as long as the values agree, so do the places of what comes next.
-/

namespace Calldata

variable {data x y e e' : Bytes} {t elem : ParamType} {ts : List ParamType} {v w : Value}
  {vs ws items items' : List Value} {ps qs : List Tuple.Part} {o base cursor next : Nat}

theorem holds_unique (hx : Holds data o x) (hy : Holds data o y) (hlen : x.length = y.length) : x = y := by
  rw [← hx.take_drop, ← hy.take_drop, hlen]

/-- Values in the form of the type with encodings at one place are the same value. -/
def Unambiguous (data : Bytes) (t : ParamType) : Prop :=
  ∀ o v w e e', Typed t v → Typed t w → encodeValue t v = .ok e → encodeValue t w = .ok e' →
    Holds data o e → Holds data o e' → v = w

theorem unambiguous_scalar (ht : t.isScalar = true) (hwf : t.WellFormed) : Unambiguous data t := by
  intro o v w e e' hv hw he he' h h'
  obtain ⟨i, hi, rfl⟩ := encodeValue_scalar ht hwf hv
  obtain ⟨j, hj, rfl⟩ := encodeValue_scalar ht hwf hw
  have hei : e = wordBytes i := Except.ok.inj (he.symm.trans hi)
  have hej : e' = wordBytes j := Except.ok.inj (he'.symm.trans hj)
  rw [hei] at h
  rw [hej] at h'
  have hbytes : wordBytes i = wordBytes j := holds_unique h h' (by rw [length_wordBytes, length_wordBytes])
  rw [← wordOfBytes_wordBytes i, hbytes, wordOfBytes_wordBytes]

theorem function_of_typed (hv : Typed .function v) (h : encodeValue .function v = .ok e) :
    ∃ bs, v = .bytes bs ∧ bs.length = functionSize ∧ padRight wordSize bs = e := by
  cases v with
  | bytes bs =>
    obtain ⟨bs', hbs, hlen, rfl⟩ := Scalar.encodeFunction_iff.mp h
    obtain rfl : bs = bs' := Except.ok.inj hbs
    exact ⟨bs, rfl, hlen, rfl⟩
  | _ => exact hv.elim

theorem unambiguous_function : Unambiguous data .function := by
  intro o v w e e' hv hw he he' h h'
  obtain ⟨bs, rfl, hlen, rfl⟩ := function_of_typed hv he
  obtain ⟨bs', rfl, hlen', rfl⟩ := function_of_typed hw he'
  -- A reference fills the start of its word, so the padding tells nothing.
  unfold padRight at h h'
  rw [holds_unique (holds_append.mp h).1 (holds_append.mp h').1 (hlen.trans hlen'.symm)]

/-! ## Tuples and arrays -/

/-- The first value stands in its slot or at the start of the tail, and the others stand behind. -/
theorem Laid.uncons (first : encodeValue t v = .ok e) (h : Laid data base cursor next (⟨t.slot, e⟩ :: ps)) :
    Holds data (if t.isDynamic then base + next else cursor) e ∧
      Laid data base (cursor + t.headSize) (if t.isDynamic then next + e.length else next) ps := by
  cases hd : t.isDynamic with
  | true =>
    obtain ⟨-, he, -, hlaid⟩ := h.dynamic hd
    rw [ParamType.headSize_of_isDynamic hd]
    exact ⟨he, hlaid⟩
  | false =>
    rw [← length_of_static hd first]
    exact h.static hd

theorem fields_unique (ht : ∀ t ∈ ts, Unambiguous data t) (hvs : List.Forall₂ Typed ts vs)
    (hws : List.Forall₂ Typed ts ws) (hps : Parts ts vs ps) (hqs : Parts ts ws qs)
    (h : Laid data base cursor next ps) (h' : Laid data base cursor next qs) : vs = ws := by
  induction hps generalizing cursor next ws qs with
  | nil =>
    cases hqs
    rfl
  | @cons t v e ts vs ps first rest ih =>
    obtain ⟨hv, hvs⟩ := List.forall₂_cons.mp hvs
    cases hqs with
    | @cons _ w e' _ ws qs first' rest' =>
      obtain ⟨hw, hrest⟩ := List.forall₂_cons.mp hws
      obtain ⟨he, hlaid⟩ := h.uncons first
      obtain ⟨he', hlaid'⟩ := h'.uncons first'
      obtain rfl : v = w := ht t List.mem_cons_self _ v w e e' hv hw first first' he he'
      -- One value has one encoding, so both tails go on at one place.
      obtain rfl : e = e' := Except.ok.inj (first.symm.trans first')
      rw [ih (fun u hu => ht u (List.mem_cons_of_mem t hu)) hvs hrest rest' hlaid hlaid']

theorem tuple_unique (ht : ∀ t ∈ ts, Unambiguous data t) (hvs : List.Forall₂ Typed ts vs)
    (hws : List.Forall₂ Typed ts ws) (henc : encode ts vs = .ok e) (henc' : encode ts ws = .ok e')
    (h : Holds data o e) (h' : Holds data o e') : vs = ws := by
  obtain ⟨-, ps, hps, rfl⟩ := encode_ok_iff.mp henc
  obtain ⟨-, qs, hqs, rfl⟩ := encode_ok_iff.mp henc'
  exact fields_unique ht hvs hws hps hqs (laid_layOut hps h) (laid_layOut hqs h')

theorem unambiguous (hmax : data.length ≤ maxSize) (hwf : t.WellFormed) : Unambiguous data t := by
  induction t using ParamType.codecInduction with
  | scalar t ht => exact unambiguous_scalar ht hwf
  | function => exact unambiguous_function
  | bytes =>
    intro o v w e e' hv hw he he' h h'
    obtain ⟨bs, rfl, rfl⟩ := bytes_of_typed hv he
    obtain ⟨bs', rfl, rfl⟩ := bytes_of_typed hw he'
    rw [Except.ok.inj ((blob_of_holds hmax h).symm.trans (blob_of_holds hmax h'))]
  | string =>
    intro o v w e e' hv hw he he' h h'
    obtain ⟨s, rfl, rfl⟩ := string_of_typed hv he
    obtain ⟨s', rfl, rfl⟩ := string_of_typed hw he'
    have hs : Payload.text data o = .ok s := Payload.text_ok_iff.mpr (blob_of_holds hmax h)
    have hs' : Payload.text data o = .ok s' := Payload.text_ok_iff.mpr (blob_of_holds hmax h')
    rw [Except.ok.inj (hs.symm.trans hs')]
  | fixedArray elem n ih =>
    intro o v w e e' hv hw he he' h h'
    obtain ⟨items, rfl, rfl, hitems, henc⟩ := fixedArray_of_typed hv he
    obtain ⟨items', rfl, hlen, hitems', henc'⟩ := fixedArray_of_typed hw he'
    rw [hlen] at hitems' henc'
    rw [tuple_unique (ParamType.forall_items (ih hwf.1)) hitems hitems' henc henc' h h']
  | array elem ih =>
    intro o v w e e' hv hw he he' h h'
    have helem : elem.WellFormed := hwf
    obtain ⟨items, b, rfl, hitems, henc, heq⟩ := array_of_typed hv he
    obtain ⟨items', b', rfl, hitems', henc', heq'⟩ := array_of_typed hw he'
    rw [heq] at h
    rw [heq'] at h'
    obtain ⟨hcount, hb⟩ := holds_append.mp h
    obtain ⟨hcount', hb'⟩ := holds_append.mp h'
    -- Both counts are read from one word.
    have hsize := size_of_holds hmax hcount (count_le helem henc)
    have hsize' := size_of_holds hmax hcount' (count_le helem henc')
    have hlen : items.length = items'.length := Except.ok.inj (hsize.symm.trans hsize')
    rw [length_bigEndian] at hb hb'
    rw [← hlen] at hitems' henc'
    rw [tuple_unique (ParamType.forall_items (ih helem)) hitems hitems' henc henc' hb hb']

/-! ## Whole encodings -/

/-- An encoding tells where it ends, and which values it stands for: an encoding of values of the
same types that starts with it is itself. Function references may occur in any of the types. -/
theorem encode_prefix_free (types : List ParamType) (htypes : ∀ t ∈ types, t.WellFormed)
    (vs ws : List Value) (hvs : List.Forall₂ Typed types vs) (hws : List.Forall₂ Typed types ws)
    (b b' : Bytes) (henc : encode types vs = .ok b) (henc' : encode types ws = .ok b')
    (hlen : b'.length < 2 ^ 63) (hstart : b <+: b') : vs = ws := by
  have hmax : b'.length ≤ maxSize := (lt_maxSize hlen).le
  obtain ⟨post, hpost⟩ := hstart
  have h : Holds b' 0 b := hpost ▸ holds_framed [] b post
  exact tuple_unique (fun t ht => unambiguous hmax (htypes t ht)) hvs hws henc henc' h (holds_self b')

theorem encode_prefix_free_references :
    let types := [ParamType.array .function, .string]
    let reference (n : UInt8) := List.replicate functionSize n
    let values (references : List Bytes) := [Value.array (references.map .bytes), .string "wabi"]
    let b (references : List Bytes) := bigEndian wordSize 64 ++ bigEndian wordSize (96 + 32 * references.length) ++
      bigEndian wordSize references.length ++ references.flatMap (padRight wordSize) ++
      Payload.encodeBlob (Text.utf8 "wabi")
    let one := [reference 1]
    let two := [reference 1, reference 2]
    ((∀ t ∈ types, t.WellFormed) ∧ List.Forall₂ Typed types (values one) ∧ List.Forall₂ Typed types (values two) ∧
      encode types (values one) = .ok (b one) ∧ encode types (values two) = .ok (b two) ∧
      (b two).length < 2 ^ 63 ∧ b one <+: b one) ∧
    (∀ ws, List.Forall₂ Typed types ws → encode types ws = .ok (b one) → values one = ws) ∧
    ¬ b one <+: b two := by
  intro types reference values b one two
  have htypes : ∀ t ∈ types, t.WellFormed := by simp [types, ParamType.WellFormed]
  have hvs : List.Forall₂ Typed types (values one) := by simp [types, values, one, reference, Typed]
  have hws : List.Forall₂ Typed types (values two) := by simp [types, values, two, reference, Typed]
  have hone : encode types (values one) = .ok (b one) := eq_ok_of_toOption (by decide +kernel)
  have htwo : encode types (values two) = .ok (b two) := eq_ok_of_toOption (by decide +kernel)
  have hlen : (b one).length < 2 ^ 63 := by decide +kernel
  have hlen' : (b two).length < 2 ^ 63 := by decide +kernel
  refine ⟨⟨htypes, hvs, hws, hone, htwo, hlen', List.prefix_rfl⟩, fun ws h henc => ?_, fun hstart => ?_⟩
  · exact encode_prefix_free types htypes _ ws hvs h _ _ hone henc hlen List.prefix_rfl
  · have heq := encode_prefix_free types htypes _ _ hvs hws _ _ hone htwo hlen' hstart
    simp [values, one, two] at heq

end Calldata
