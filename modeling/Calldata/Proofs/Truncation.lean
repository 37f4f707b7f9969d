import Calldata.Proofs.Aliasing
import Calldata.Proofs.Footprint

/-!
# Encodings that were cut off

A cut through an encoding is noticed, unless all that is lost is padding behind the last byte string.
Nothing else stands behind the last byte that a decode inspects.
-/

namespace Calldata

variable {data e x : Bytes} {t elem : ParamType} {ts : List ParamType} {v : Value} {vs items : List Value}
  {ps : List Tuple.Part} {o base cursor next n : Nat} {bss css : List Bytes} {spans rest : List Span}

/-- The byte strings and texts in a value, in the order in which they are encoded. -/
def blobs : ParamType → Value → List Bytes
  | .bytes, .bytes bs => [bs]
  | .string, .string s => [Text.utf8 s]
  | .fixedArray elem _, .array items | .array elem, .array items => items.flatMap (blobs elem)
  | _, _ => []

/-- The byte strings and texts in values of these types. -/
def blobsOf (types : List ParamType) (values : List Value) : List Bytes :=
  (types.zip values).flatMap fun (t, v) => blobs t v

@[simp] theorem blobsOf_nil : blobsOf [] vs = [] := rfl

@[simp] theorem blobsOf_cons : blobsOf (t :: ts) (v :: vs) = blobs t v ++ blobsOf ts vs := by
  simp [blobsOf]

theorem blobsOf_replicate : blobsOf (List.replicate items.length elem) items = items.flatMap (blobs elem) := by
  induction items with
  | nil => rfl
  | cons v items ih =>
    rw [List.length_cons, List.replicate_succ, blobsOf_cons, ih, List.flatMap_cons]

theorem blobs_of_static (hd : t.isDynamic = false) (v : Value) : blobs t v = [] := by
  induction t using ParamType.codecInduction generalizing v with
  | scalar t ht => cases t <;> first | rfl | simp [ParamType.isScalar] at ht
  | function => rfl
  | bytes | string | array => simp [ParamType.isDynamic] at hd
  | fixedArray elem n ih =>
    cases v with
    | array items => exact List.flatMap_eq_nil_iff.mpr fun v _ => ih hd v
    | _ => rfl

theorem blobsOf_of_static (hd : ∀ t ∈ ts, t.isDynamic = false) : blobsOf ts vs = [] := by
  induction ts generalizing vs with
  | nil => rfl
  | cons t ts ih =>
    obtain ⟨ht, hts⟩ := List.forall_mem_cons.mp hd
    cases vs with
    | nil => rfl
    | cons v vs => rw [blobsOf_cons, blobs_of_static ht, ih hts, List.append_nil]

/-! ## How far a decode looks -/

/-- The first `n` bytes of an encoding are all of it, or all but the padding of the last of its byte
strings. -/
def Reaches (bss : List Bytes) (e : Bytes) (n : Nat) : Prop :=
  n = e.length ∨ ∃ front bs, bss.getLast? = some bs ∧ e = front ++ Payload.encodeBlob bs ∧
    n = front.length + wordSize + bs.length

theorem reaches_nil (h : Reaches [] e n) : n = e.length := by
  rcases h with h | ⟨front, bs, hbs, -⟩
  · exact h
  · simp at hbs

theorem Reaches.prepend (h : Reaches bss e n) : Reaches bss (x ++ e) (x.length + n) := by
  rcases h with rfl | ⟨front, bs, hbs, rfl, rfl⟩
  · exact .inl (by rw [List.length_append])
  · refine .inr ⟨x ++ front, bs, hbs, by rw [List.append_assoc], ?_⟩
    rw [List.length_append]
    omega

theorem Reaches.behind (h : Reaches bss e n) : Reaches (css ++ bss) e n := by
  rcases h with h | ⟨front, bs, hbs, h⟩
  · exact .inl h
  · exact .inr ⟨front, bs, by rw [List.getLast?_append, hbs]; rfl, h⟩

/-- One of the spans ends where the first bytes of an encoding at `o` do that reach its end. -/
def Reached (spans : List Span) (o : Nat) (bss : List Bytes) (e : Bytes) : Prop :=
  ∃ s ∈ spans, ∃ n, s.stop = o + n ∧ Reaches bss e n

theorem Reached.mono (h : Reached spans o bss e) (hsub : spans ⊆ rest) : Reached rest o bss e := by
  obtain ⟨s, hs, hn⟩ := h
  exact ⟨s, hsub hs, hn⟩

theorem Reached.prepend (h : Reached spans (o + x.length) bss e) : Reached spans o bss (x ++ e) := by
  obtain ⟨s, hs, n, hstop, hn⟩ := h
  exact ⟨s, hs, x.length + n, by omega, hn.prepend⟩

theorem Reached.behind (h : Reached spans o bss e) : Reached spans o (css ++ bss) e := by
  obtain ⟨s, hs, n, hstop, hn⟩ := h
  exact ⟨s, hs, n, hstop, hn.behind⟩

theorem reached_head (ht : ∀ t ∈ ts, ∀ v e p, Typed t v → encodeValue t v = .ok e → Holds data p e →
      Reached (inspectAt data t p) p (blobs t v) e)
    (hstatic : ∀ t ∈ ts, t.isDynamic = false) (hne : ts ≠ [])
    (hv : List.Forall₂ Typed ts vs) (hps : Parts ts vs ps) (h : Laid data base cursor next ps) :
    ∃ s ∈ inspectFields data base cursor ts, s.stop = cursor + (Tuple.head next ps).length := by
  induction hps generalizing cursor next with
  | nil => exact absurd rfl hne
  | @cons t v e ts vs ps first rest ih =>
    obtain ⟨hvfirst, hvs⟩ := List.forall₂_cons.mp hv
    obtain ⟨hd, hds⟩ := List.forall_mem_cons.mp hstatic
    obtain ⟨he, hlaid⟩ := h.static hd
    rw [inspectFields_cons, inspectField, if_neg (by simp [hd]), head_static hd, List.length_append,
      ← length_of_static hd first]
    cases rest with
    | nil =>
      obtain ⟨s, hs, n, hstop, hn⟩ := ht t List.mem_cons_self v e _ hvfirst first he
      rw [blobs_of_static hd] at hn
      refine ⟨s, List.mem_append_left _ hs, ?_⟩
      rw [hstop, reaches_nil hn]
      rfl
    | cons first' rest' =>
      obtain ⟨s, hs, hstop⟩ := ih (fun u hu => ht u (List.mem_cons_of_mem t hu)) hds (by simp) hvs hlaid
      exact ⟨s, List.mem_append_right _ hs, by omega⟩

theorem reached_tail (hmax : data.length ≤ maxSize)
    (ht : ∀ t ∈ ts, ∀ v e p, Typed t v → encodeValue t v = .ok e → Holds data p e →
      Reached (inspectAt data t p) p (blobs t v) e)
    (hdynamic : ∃ t ∈ ts, t.isDynamic = true)
    (hv : List.Forall₂ Typed ts vs) (hps : Parts ts vs ps) (h : Laid data base cursor next ps) :
    Reached (inspectFields data base cursor ts) (base + next) (blobsOf ts vs) (Tuple.tail ps) := by
  induction hps generalizing cursor next with
  | nil => simp at hdynamic
  | @cons t v e ts vs ps first rest ih =>
    obtain ⟨hv, hvs⟩ := List.forall₂_cons.mp hv
    have hrest (cursor next : Nat) (hds : ∃ u ∈ ts, u.isDynamic = true) (h : Laid data base cursor next ps) :=
      ih (fun u hu => ht u (List.mem_cons_of_mem t hu)) hds hvs h
    rw [inspectFields_cons, inspectField, blobsOf_cons]
    by_cases hds : ∃ u ∈ ts, u.isDynamic = true
    · -- A later field ends the tail, whatever this one puts in front of it.
      cases hd : t.isDynamic with
      | true =>
        obtain ⟨-, -, -, hlaid⟩ := h.dynamic hd
        have hlast := hrest _ _ hds hlaid
        rw [← Nat.add_assoc] at hlast
        rw [tail_dynamic hd, ParamType.headSize_of_isDynamic hd]
        exact hlast.prepend.behind.mono (List.subset_append_right _ _)
      | false =>
        obtain ⟨-, hlaid⟩ := h.static hd
        rw [tail_static hd, ← length_of_static hd first]
        exact (hrest _ _ hds hlaid).behind.mono (List.subset_append_right _ _)
    · -- The tail ends with this field.
      have hstatic : ∀ u ∈ ts, u.isDynamic = false := by simpa using hds
      have hd : t.isDynamic = true := by
        obtain ⟨u, hu, hud⟩ := hdynamic
        rcases List.mem_cons.mp hu with rfl | hu
        · exact hud
        · exact absurd ⟨u, hu, hud⟩ hds
      obtain ⟨hword, he, -, -⟩ := h.dynamic hd
      have hle := he.le
      have hlast := ht t List.mem_cons_self v e _ hv first he
      rw [if_pos hd, sizeAt_of_ok (size_of_holds hmax hword (by omega)), tail_dynamic hd,
        tail_of_static hstatic rest, blobsOf_of_static hstatic, List.append_nil, List.append_nil]
      exact hlast.mono fun s hs => List.mem_append_left _ (List.mem_cons_of_mem _ hs)

theorem reached_tuple (hmax : data.length ≤ maxSize)
    (ht : ∀ t ∈ ts, ∀ v e p, Typed t v → encodeValue t v = .ok e → Holds data p e →
      Reached (inspectAt data t p) p (blobs t v) e) (hne : ts ≠ [])
    (hv : List.Forall₂ Typed ts vs) (henc : encode ts vs = .ok e) (h : Holds data o e) :
    Reached (inspectFields data o o ts) o (blobsOf ts vs) e := by
  obtain ⟨-, ps, hps, rfl⟩ := encode_ok_iff.mp henc
  have hlaid := laid_layOut hps h
  rw [Tuple.layOut, hps.slots]
  by_cases hdynamic : ∃ t ∈ ts, t.isDynamic = true
  · have hlast := reached_tail hmax ht hdynamic hv hps hlaid
    have hlen : (Tuple.head (Tuple.headSize (ts.map ParamType.slot)) ps).length = _ := length_head hps
    rw [← hlen] at hlast
    exact hlast.prepend
  · have hstatic : ∀ t ∈ ts, t.isDynamic = false := by simpa using hdynamic
    obtain ⟨s, hs, hstop⟩ := reached_head ht hstatic hne hv hps hlaid
    refine ⟨s, hs, _, hstop, .inl ?_⟩
    rw [tail_of_static hstatic hps, List.append_nil]

theorem reached_blob {bs : Bytes} (hmax : data.length ≤ maxSize) (h : Holds data o (Payload.encodeBlob bs)) :
    Reached [⟨o, wordSize⟩, ⟨o + wordSize, sizeAt data o⟩] o [bs] (Payload.encodeBlob bs) := by
  rw [sizeAt_of_blob (blob_of_holds hmax h)]
  refine ⟨_, List.mem_cons_of_mem _ List.mem_cons_self, wordSize + bs.length, ?_,
    .inr ⟨[], bs, rfl, (List.nil_append _).symm, ?_⟩⟩
  · rw [Span.stop, Nat.add_assoc]
  · rw [List.length_nil, Nat.zero_add]

/-- Decoding an encoding looks at all of it, or at all but the padding behind its last byte string. -/
theorem reached_of_holds (hmax : data.length ≤ maxSize) (hw : t.WellFormed) (hf : t.FunctionFree)
    (hv : Typed t v) (he : encodeValue t v = .ok e) (h : Holds data o e) :
    Reached (inspectAt data t o) o (blobs t v) e := by
  induction t using ParamType.codecInduction generalizing v e o with
  | scalar t ht =>
    rw [inspectAt_scalar ht]
    exact ⟨_, List.mem_cons_self, wordSize, rfl, .inl (length_word_of_ok (.inl ht) he).symm⟩
  | function => exact hf.elim
  | bytes =>
    obtain ⟨bs, rfl, rfl⟩ := bytes_of_typed hv he
    exact reached_blob hmax h
  | string =>
    obtain ⟨s, rfl, rfl⟩ := string_of_typed hv he
    exact reached_blob hmax h
  | fixedArray elem n ih =>
    obtain ⟨items, rfl, rfl, hitems, henc⟩ := fixedArray_of_typed hv he
    have hne : List.replicate items.length elem ≠ [] := by
      have := hw.2.1
      rw [Ne, List.replicate_eq_nil_iff]
      omega
    rw [inspectAt_fixedArray, blobs, ← blobsOf_replicate]
    exact reached_tuple hmax (ParamType.forall_items fun _ _ _ => ih hw.1 hf) hne hitems henc h
  | array elem ih =>
    have helem : elem.WellFormed := hw
    obtain ⟨items, b, rfl, hitems, henc, heq⟩ := array_of_typed hv he
    rw [heq] at h ⊢
    obtain ⟨hcount, hb⟩ := holds_append.mp h
    rw [length_bigEndian] at hb
    have hsize := size_of_holds hmax hcount (count_le helem henc)
    rw [inspectAt_array, sizeAt_of_ok hsize, blobs, ← blobsOf_replicate]
    by_cases hne : List.replicate items.length elem = []
    · -- Without items nothing stands behind the count.
      rw [hne] at henc
      obtain ⟨-, ps, hps, rfl⟩ := encode_ok_iff.mp henc
      cases hps
      refine ⟨_, List.mem_cons_self, wordSize, rfl, .inl ?_⟩
      rw [List.length_append, length_bigEndian]
      rfl
    · have hlast : Reached (inspectFields data (o + wordSize) (o + wordSize) (List.replicate items.length elem))
          (o + (bigEndian wordSize items.length).length) (blobsOf (List.replicate items.length elem) items) b := by
        rw [length_bigEndian]
        exact reached_tuple hmax (ParamType.forall_items fun _ _ _ => ih helem hf) hne
          hitems henc hb
      exact hlast.prepend.mono (List.subset_cons_self _ _)

/-! ## Cutting an encoding off -/

/-- Of an encoding without its end, a decode either says how many bytes it misses, or it returns the
values. Then all that is missing is padding behind the last byte string. No byte string in memory
has `2 ^ 63` bytes. -/
theorem decode_take (types : List ParamType) (values : List Value) (b : Bytes)
    (htypes : ∀ t ∈ types, t.WellFormed ∧ t.FunctionFree) (hvalues : List.Forall₂ Typed types values)
    (hb : encode types values = .ok b) (hlen : b.length < 2 ^ 63) (k : Nat) (hk : k < b.length) :
    (∃ needed, decode types (b.take k) = .error (.shortData needed k) ∧ k < needed ∧ needed ≤ b.length) ∨
      (decode types (b.take k) = .ok values ∧
        ∃ front bs, (blobsOf types values).getLast? = some bs ∧ b = front ++ Payload.encodeBlob bs ∧
          front.length + wordSize + bs.length ≤ k) := by
  have hmax : b.length ≤ maxSize := by simp only [maxSize]; omega
  have hstands : Holds b 0 b := ⟨by simp, by simp⟩
  have hcut : (b.take k).length = k := by rw [List.length_take, Nat.min_eq_left (by omega)]
  obtain ⟨-, ps, hps, rfl⟩ := encode_ok_iff.mp hb
  obtain ⟨n, hn⟩ := runs_fields hmax
    (fun t ht _ _ _ => runs_of_holds hmax (htypes t ht).1 (htypes t ht).2) hvalues hps (laid_layOut hps hstands)
  have hfoot := footprint_tuple hmax
    (fun t ht _ _ _ => footprint_of_holds hmax (htypes t ht).1 (htypes t ht).2) hvalues hb hstands
  have hpaid := fields_paid (fun _ _ _ _ _ => runs_paid) hn
  have hroom : spannedBefore k _ ≤ k := spannedBefore_le hfoot.disjoint
  cases cut_decodeFields (Nat.le_of_lt hk) hn with
  | stopped needed spent run short bound paid =>
    -- What was spent by then is paid for by bytes in front of the cut.
    refine .inl ⟨needed, ?_, short, bound⟩
    exact run_of_le (by omega) run (by omega)
  | whole inside run =>
    rw [spannedBefore_of_stop_le inside] at hroom
    refine .inr ⟨run_of_le (by omega) run (by omega), ?_⟩
    have hne : types ≠ [] := by
      rintro rfl
      cases hps
      exact absurd hk (Nat.not_lt_zero k)
    obtain ⟨s, hs, m, hstop, hm⟩ := reached_tuple hmax
      (fun t ht _ _ _ => reached_of_holds hmax (htypes t ht).1 (htypes t ht).2) hne hvalues hb hstands
    have hinside := inside s hs
    rcases hm with rfl | ⟨front, bs, hbs, heq, rfl⟩
    · omega
    · exact ⟨front, bs, hbs, heq, by omega⟩

theorem decode_take_short :
    let types := [ParamType.uint 8, .bytes]
    let values := [Value.uint 7, .bytes [1, 2, 3]]
    let b := bigEndian wordSize 7 ++ bigEndian wordSize 64 ++ Payload.encodeBlob [1, 2, 3]
    ((∀ t ∈ types, t.WellFormed ∧ t.FunctionFree) ∧ List.Forall₂ Typed types values ∧
      encode types values = .ok b ∧ b.length < 2 ^ 63 ∧ 98 < b.length) ∧
      ∃ needed, decode types (b.take 98) = .error (.shortData needed 98) ∧ 98 < needed ∧ needed ≤ 128 := by
  intro types values b
  have htypes : ∀ t ∈ types, t.WellFormed ∧ t.FunctionFree := by
    simp [types, ParamType.WellFormed, ParamType.FunctionFree, ParamType.IsWidth]
  have hbyte : Typed (.uint 8) (.uint 7) := by
    change (7 : Word).toNat < 2 ^ 8
    decide
  have hvalues : List.Forall₂ Typed types values := .cons hbyte (.cons trivial .nil)
  have hb : encode types values = .ok b := eq_ok_of_toOption (by decide +kernel)
  have hlength : b.length = 128 := by decide +kernel
  refine ⟨⟨htypes, hvalues, hb, by omega, by omega⟩, ?_⟩
  rw [← hlength]
  rcases decode_take types values b htypes hvalues hb (by omega) 98 (by omega) with
    hshort | ⟨-, front, bs, hbs, heq, hle⟩
  · exact hshort
  · obtain rfl : [1, 2, 3] = bs := Option.some.inj hbs
    have hsum : b.length = _ := congrArg List.length heq
    rw [hlength, List.length_append, length_encodeBlob] at hsum
    simp only [blobWords, wordsFor, wordSize, List.length_cons, List.length_nil] at hsum hle
    omega

end Calldata
