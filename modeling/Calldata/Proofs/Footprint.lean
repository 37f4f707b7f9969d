import Calldata.Proofs.Standing

/-!
# What is inspected of an encoding

Decoding an encoding inspects no byte twice, and none outside of the encoding. The spans of a tuple
lie in its head or in its tail, and each field has its own stretch of both.
-/

namespace Calldata

variable {data e : Bytes} {t elem : ParamType} {ts : List ParamType} {v : Value} {vs items : List Value}
  {ps : List Tuple.Part} {o base cursor next lo hi : Nat} {spans rest : List Span}

/-- The bytes of the span stand between two places. -/
def Span.Within (lo hi : Nat) (s : Span) : Prop := lo ≤ s.start ∧ s.stop ≤ hi

/-- The bytes of the span stand in one of two stretches. -/
def Span.Split (a b c d : Nat) (s : Span) : Prop := s.Within a b ∨ s.Within c d

/-- The spans have no byte in common, and each of them has the property. -/
structure Footprint (P : Span → Prop) (spans : List Span) : Prop where
  inside : ∀ s ∈ spans, P s
  disjoint : spans.Pairwise Span.Disjoint

theorem Footprint.imp {P Q : Span → Prop} (h : Footprint P spans) (hPQ : ∀ s, P s → Q s) :
    Footprint Q spans :=
  ⟨fun s hs => hPQ s (h.inside s hs), h.disjoint⟩

theorem Footprint.append {P Q : Span → Prop} (hP : Footprint P spans) (hQ : Footprint Q rest)
    (hPQ : ∀ s u, P s → Q u → s.Disjoint u) : Footprint (fun s => P s ∨ Q s) (spans ++ rest) where
  inside s hs := by
    rcases List.mem_append.mp hs with hs | hs
    · exact .inl (hP.inside s hs)
    · exact .inr (hQ.inside s hs)
  disjoint := List.pairwise_append.mpr
    ⟨hP.disjoint, hQ.disjoint, fun s hs u hu => hPQ s u (hP.inside s hs) (hQ.inside u hu)⟩

theorem footprint_word : Footprint (Span.Within o (o + wordSize)) [⟨o, wordSize⟩] where
  inside := by simp [Span.Within, Span.stop]
  disjoint := List.pairwise_singleton _ _

theorem Footprint.within_append {a b c : Nat} (hx : Footprint (Span.Within a b) spans)
    (hy : Footprint (Span.Within b c) rest) (hab : a ≤ b) (hbc : b ≤ c) :
    Footprint (Span.Within a c) (spans ++ rest) := by
  refine (hx.append hy ?_).imp ?_
  · intro s u hs hu
    exact Span.disjoint_of_le (.inl (Nat.le_trans hs.2 hu.1))
  · intro s hs
    simp only [Span.Within] at *
    omega

theorem Footprint.extend {a b b' c d d' : Nat} (hx : Footprint (Span.Split a b c d) spans)
    (hy : Footprint (Span.Split b b' d d') rest) (hab : a ≤ b) (hb : b ≤ b') (hbc : b' ≤ c)
    (hcd : c ≤ d) (hd : d ≤ d') : Footprint (Span.Split a b' c d') (spans ++ rest) := by
  refine (hx.append hy ?_).imp ?_
  · intro s u hs hu
    apply Span.disjoint_of_le
    simp only [Span.Split, Span.Within] at hs hu
    omega
  · intro s hs
    simp only [Span.Split, Span.Within] at *
    omega

theorem footprint_fields (hmax : data.length ≤ maxSize)
    (ht : ∀ t ∈ ts, ∀ v e p, Typed t v → encodeValue t v = .ok e → Holds data p e →
      Footprint (Span.Within p (p + e.length)) (inspectAt data t p))
    (hv : List.Forall₂ Typed ts vs) (hps : Parts ts vs ps) (h : Laid data base cursor next ps) :
    Footprint (Span.Split cursor (cursor + (Tuple.head next ps).length)
      (base + next) (base + next + (Tuple.tail ps).length)) (inspectFields data base cursor ts) := by
  induction hps generalizing cursor next with
  | nil => exact ⟨by simp [inspectFields, inspectFrom], .nil⟩
  | @cons t v e ts vs ps first rest ih =>
    obtain ⟨hv, hvs⟩ := List.forall₂_cons.mp hv
    have hrest (cursor next : Nat) (h : Laid data base cursor next ps) :=
      ih (fun u hu => ht u (List.mem_cons_of_mem t hu)) hvs h
    rw [inspectFields_cons, inspectField]
    cases hd : t.isDynamic with
    | true =>
      obtain ⟨hword, he, hapart, hlaid⟩ := h.dynamic hd
      have hle := he.le
      have hend := h.apart
      have hvalue := ht t List.mem_cons_self v e _ hv first he
      have hfields := hrest _ _ hlaid
      -- The offset stands in the head, and the value behind the whole head.
      have hfirst : Footprint (Span.Split cursor (cursor + wordSize) (base + next) (base + next + e.length))
          (⟨cursor, wordSize⟩ :: inspectAt data t (base + next)) := by
        refine footprint_word.append hvalue fun s u hs hu => Span.disjoint_of_le ?_
        exact .inl (Nat.le_trans hs.2 (Nat.le_trans hapart hu.1))
      rw [head_dynamic hd, List.length_append, length_bigEndian, ← Nat.add_assoc] at hend
      rw [← Nat.add_assoc] at hfields
      rw [if_pos rfl, sizeAt_of_ok (size_of_holds hmax hword (by omega)), head_dynamic hd, tail_dynamic hd,
        ParamType.headSize_of_isDynamic hd, List.length_append, List.length_append, length_bigEndian,
        ← Nat.add_assoc, ← Nat.add_assoc]
      exact hfirst.extend hfields (by omega) (by omega) (by omega) (by omega) (by omega)
    | false =>
      obtain ⟨he, hlaid⟩ := h.static hd
      have hend := hlaid.apart
      have hvalue := ht t List.mem_cons_self v e _ hv first he
      have hfields := hrest _ _ hlaid
      rw [if_neg (by simp), head_static hd, tail_static hd, ← length_of_static hd first, List.length_append]
      rw [← Nat.add_assoc]
      have hfirst : Footprint (Span.Split cursor (cursor + e.length) (base + next) (base + next))
          (inspectAt data t cursor) := hvalue.imp fun _ => .inl
      exact hfirst.extend hfields (by omega) (by omega) (by omega) (by omega) (by omega)

theorem footprint_tuple (hmax : data.length ≤ maxSize)
    (ht : ∀ t ∈ ts, ∀ v e p, Typed t v → encodeValue t v = .ok e → Holds data p e →
      Footprint (Span.Within p (p + e.length)) (inspectAt data t p))
    (hv : List.Forall₂ Typed ts vs) (henc : encode ts vs = .ok e) (h : Holds data o e) :
    Footprint (Span.Within o (o + e.length)) (inspectFields data o o ts) := by
  obtain ⟨-, ps, hps, rfl⟩ := encode_ok_iff.mp henc
  have hfields := footprint_fields hmax ht hv hps (laid_layOut hps h)
  refine hfields.imp fun s hs => ?_
  rw [Tuple.layOut, hps.slots, List.length_append]
  rw [length_head hps] at *
  simp only [Span.Split, Span.Within] at *
  omega

theorem footprint_blob {bs : Bytes} (hmax : data.length ≤ maxSize)
    (h : Holds data o (Payload.encodeBlob bs)) :
    Footprint (Span.Within o (o + (Payload.encodeBlob bs).length))
      [⟨o, wordSize⟩, ⟨o + wordSize, sizeAt data o⟩] := by
  have hlen := length_encodeBlob bs
  simp only [blobWords, wordsFor, wordSize] at hlen
  have hbytes : Footprint (Span.Within (o + wordSize) (o + (Payload.encodeBlob bs).length))
      [⟨o + wordSize, bs.length⟩] := by
    refine ⟨List.forall_mem_singleton.mpr ⟨Nat.le_refl _, ?_⟩, List.pairwise_singleton _ _⟩
    simp only [Span.stop, wordSize]
    omega
  rw [sizeAt_of_blob (blob_of_holds hmax h)]
  exact footprint_word.within_append hbytes (by omega) (by simp only [wordSize]; omega)

/-- Decoding an encoding inspects no byte twice, and none outside of it. -/
theorem footprint_of_holds (hmax : data.length ≤ maxSize) (hw : t.WellFormed) (hf : t.FunctionFree)
    (hv : Typed t v) (he : encodeValue t v = .ok e) (h : Holds data o e) :
    Footprint (Span.Within o (o + e.length)) (inspectAt data t o) := by
  induction t using ParamType.codecInduction generalizing v e o with
  | scalar t ht =>
    rw [inspectAt_scalar ht, length_word_of_ok (.inl ht) he]
    exact footprint_word
  | function => exact hf.elim
  | bytes =>
    obtain ⟨bs, rfl, rfl⟩ := bytes_of_typed hv he
    exact footprint_blob hmax h
  | string =>
    obtain ⟨s, rfl, rfl⟩ := string_of_typed hv he
    exact footprint_blob hmax h
  | fixedArray elem n ih =>
    obtain ⟨items, rfl, rfl, hitems, henc⟩ := fixedArray_of_typed hv he
    rw [inspectAt_fixedArray]
    exact footprint_tuple hmax (ParamType.forall_items fun _ _ _ => ih hw.1 hf) hitems henc h
  | array elem ih =>
    have helem : elem.WellFormed := hw
    obtain ⟨items, b, rfl, hitems, henc, heq⟩ := array_of_typed hv he
    rw [heq] at h ⊢
    obtain ⟨hcount, hb⟩ := holds_append.mp h
    rw [length_bigEndian] at hb
    have hsize := size_of_holds hmax hcount (count_le helem henc)
    have hfields := footprint_tuple hmax
      (ParamType.forall_items fun _ _ _ => ih helem hf) hitems henc hb
    rw [inspectAt_array, sizeAt_of_ok hsize, List.length_append, length_bigEndian, ← Nat.add_assoc]
    exact footprint_word.within_append hfields (by omega) (by omega)

end Calldata
