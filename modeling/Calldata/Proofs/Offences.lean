import Calldata.Proofs.FirstRefusals
import Calldata.Proofs.Layout
import Mathlib.Data.List.Lex

/-!
# The first offence of an encoding

Several of the values that are encoded together may be refused, each for reasons of its own, and deep
inside of arrays. The fault that is told is the first one from left to right, and of one value the
first one inside of it. Nothing behind it plays a part.
-/

namespace Calldata

variable {t elem : ParamType} {ts : List ParamType} {v : Value} {vs items : List Value} {e b : Bytes}
  {fault : Fault} {p q : List Nat} {i n : Nat}

/-! ## Offences -/

def ParamType.elem? : ParamType → Option ParamType
  | fixedArray elem _ | array elem => some elem
  | _ => none

/-- What is wrong at a place of a value of the type. A place is the way there, by numbers of items: the
value itself is at `[]`. Only an array with as many items as its type asks for has places inside. -/
inductive OffenceIn : ParamType → Value → List Nat → Fault → Prop
  | leaf {t : ParamType} {v : Value} {fault : Fault} (ht : t.elem? = none) (h : encodeValue t v = .error fault) :
      OffenceIn t v [] fault
  | form {t elem : ParamType} {v : Value} (ht : t.elem? = some elem) (hv : ∀ items, v ≠ .array items) :
      OffenceIn t v [] (.badValue (.wrongForm (.array elem) v))
  | count {elem : ParamType} {n : Nat} {items : List Value} (hn : items.length ≠ n) :
      OffenceIn (.fixedArray elem n) (.array items) [] (.arity n items.length)
  | fixedItem {elem : ParamType} {n i : Nat} {items : List Value} {v : Value} {p : List Nat} {fault : Fault}
      (hn : items.length = n) (hv : items[i]? = some v) (h : OffenceIn elem v p fault) :
      OffenceIn (.fixedArray elem n) (.array items) (i :: p) fault
  | item {elem : ParamType} {i : Nat} {items : List Value} {v : Value} {p : List Nat} {fault : Fault}
      (hv : items[i]? = some v) (h : OffenceIn elem v p fault) :
      OffenceIn (.array elem) (.array items) (i :: p) fault

/-- What is wrong at a place of several values. The way there starts with the number of the value. -/
def OffenceAt (ts : List ParamType) (vs : List Value) (p : List Nat) (fault : Fault) : Prop :=
  ∃ i q field, p = i :: q ∧ (ts.zip vs)[i]? = some field ∧ OffenceIn field.1 field.2 q fault

/-- The first of some faults, from left to right and each value before what follows it. -/
structure Foremost (P : List Nat → Fault → Prop) (p : List Nat) (fault : Fault) : Prop where
  here : P p fault
  before (q : List Nat) (other : Fault) (hq : List.Lex (· < ·) q p) : ¬ P q other

/-- The first value that has no encoding, by its number among the others. -/
abbrev FirstFailing (ts : List ParamType) (vs : List Value) : Nat → Fault → Prop :=
  FirstError (fun field : ParamType × Value => encodeValue field.1 field.2) (ts.zip vs)

/-! ## Room for heads -/

/-- The heads of all tuples inside of the value are small. -/
def Roomy : ParamType → Value → Prop
  | .fixedArray elem n, .array items =>
    items.length = n → n * elem.headSize < 2 ^ 63 ∧ ∀ v ∈ items, Roomy elem v
  | .array elem, .array items => items.length * elem.headSize < 2 ^ 63 ∧ ∀ v ∈ items, Roomy elem v
  | _, _ => True

/-- The head of the tuple is small, and so are all heads inside of its values. -/
structure RoomyTuple (ts : List ParamType) (vs : List Value) : Prop where
  head : Tuple.headSize (ts.map ParamType.slot) < 2 ^ 63
  fields (field : ParamType × Value) (h : field ∈ ts.zip vs) : Roomy field.1 field.2

/-! ## Tuples -/

theorem parts_eq_mapM (cs : List (Slot × Except Fault Bytes)) :
    Tuple.parts cs = cs.mapM fun c => c.2.map (⟨c.1, ·⟩) := by
  fun_induction Tuple.parts cs with
  | case1 => rfl
  | case2 => rfl
  | case3 slot e rest ih =>
    rw [List.mapM_cons, ih]
    cases rest.mapM fun c => c.2.map (Tuple.Part.mk c.1) <;> rfl

theorem encode_error_iff (hlen : ts.length = vs.length) (hroom : Tuple.headSize (ts.map ParamType.slot) ≤ maxSize) :
    encode ts vs = .error fault ↔ ∃ i, FirstFailing ts vs i fault := by
  rw [encode_of_length hlen, Tuple.encode, slots_fields hlen, if_neg (by omega), map_error_iff, parts_eq_mapM,
    mapM_error_iff]
  apply exists_congr
  intro i
  unfold fields FirstError
  rw [firstRefused_map]
  apply firstRefused_congr
  · intro field _
    constructor
    · rintro ⟨part, h⟩
      obtain ⟨e, he, -⟩ := map_ok_iff.mp h
      exact ⟨e, he⟩
    · rintro ⟨e, he⟩
      exact ⟨_, map_ok_iff.mpr ⟨e, he, rfl⟩⟩
  · intro field _
    exact map_error_iff

theorem firstFailing_items : FirstFailing (List.replicate items.length elem) items i fault ↔
    FirstError (encodeValue elem) items i fault := by
  unfold FirstFailing
  rw [zip_items]
  exact firstRefused_map

theorem encode_items_error_iff (hroom : items.length * elem.headSize < 2 ^ 63) :
    encode (List.replicate items.length elem) items = .error fault ↔
      ∃ i, FirstError (encodeValue elem) items i fault := by
  have hmax := lt_maxSize hroom
  rw [encode_error_iff (by simp) (by rw [headSize_replicate]; omega)]
  simp only [firstFailing_items]

theorem encodeValue_fixedArray_error_iff (hn : items.length = n) :
    encodeValue (.fixedArray elem n) (.array items) = .error fault ↔
      encode (List.replicate items.length elem) items = .error fault := by
  rw [encodeValue_fixedArray, if_neg (by simp [hn])]

theorem encodeValue_array_error_iff :
    encodeValue (.array elem) (.array items) = .error fault ↔
      encode (List.replicate items.length elem) items = .error fault := by
  rw [encodeValue_array, map_error_iff]

theorem exists_ok_of_encode {field : ParamType × Value} (h : encode ts vs = .ok b) (hfield : field ∈ ts.zip vs) :
    ∃ e, encodeValue field.1 field.2 = .ok e := by
  obtain ⟨-, ps, hps, -⟩ := encode_ok_iff.mp h
  clear h
  induction hps with
  | nil => simp at hfield
  | @cons t v e ts vs ps first rest ih =>
    rw [List.zip_cons_cons] at hfield
    rcases List.mem_cons.mp hfield with rfl | hfield
    · exact ⟨e, first⟩
    · exact ih hfield

/-! ## Values -/

theorem ok_of_encode_items (h : encode (List.replicate items.length elem) items = .ok b) (hv : v ∈ items) :
    ∃ e, encodeValue elem v = .ok e := by
  have hfield : (elem, v) ∈ (List.replicate items.length elem).zip items := by
    rw [zip_items]
    exact List.mem_map_of_mem hv
  exact exists_ok_of_encode h hfield

theorem not_ok_of_offence (h : OffenceIn t v p fault) : ¬ ∃ e, encodeValue t v = .ok e := by
  induction h with
  | leaf ht h => simp [h]
  | @form t elem v ht hv =>
    rintro ⟨e, he⟩
    cases t with
    | fixedArray =>
      obtain ⟨items, rfl, -⟩ := encode_fixedArray_iff.mp he
      exact hv items rfl
    | array =>
      obtain ⟨items, -, rfl, -⟩ := encode_array_iff.mp he
      exact hv items rfl
    | _ => simp [ParamType.elem?] at ht
  | count hn =>
    rintro ⟨e, he⟩
    obtain ⟨_, ⟨⟩, hlen, -⟩ := encode_fixedArray_iff.mp he
    exact hn hlen
  | fixedItem hn hv h ih =>
    rintro ⟨e, he⟩
    obtain ⟨_, ⟨⟩, rfl, henc⟩ := encode_fixedArray_iff.mp he
    exact ih (ok_of_encode_items henc (List.mem_of_getElem? hv))
  | item hv h ih =>
    rintro ⟨e, he⟩
    obtain ⟨_, b, ⟨⟩, henc, -⟩ := encode_array_iff.mp he
    exact ih (ok_of_encode_items henc (List.mem_of_getElem? hv))

theorem firstFailing_iff_foremost (hfield : ∀ field ∈ ts.zip vs, ∀ fault,
      encodeValue field.1 field.2 = .error fault ↔ ∃ p, Foremost (OffenceIn field.1 field.2) p fault) :
    (∃ i, FirstFailing ts vs i fault) ↔ ∃ p, Foremost (OffenceAt ts vs) p fault := by
  constructor
  · rintro ⟨i, ⟨field, hi, hfault⟩, hbefore⟩
    obtain ⟨q, hq, hfirst⟩ := (hfield field (List.mem_of_getElem? hi) fault).mp hfault
    refine ⟨i :: q, ⟨i, q, field, rfl, hi, hq⟩, ?_⟩
    rintro _ other hlex ⟨j, r, earlier, rfl, hj, hr⟩
    cases hlex with
    | rel hlt => exact not_ok_of_offence hr (hbefore j earlier hlt hj)
    | cons hlex =>
      obtain rfl := Option.some.inj (hi.symm.trans hj)
      exact hfirst r other hlex hr
  · rintro ⟨p, ⟨i, q, field, rfl, hi, hq⟩, hfirst⟩
    refine ⟨i, ⟨field, hi, ?_⟩, fun j earlier hj hearlier => ?_⟩
    · refine (hfield field (List.mem_of_getElem? hi) fault).mpr ⟨q, hq, fun r other hlex hr => ?_⟩
      exact hfirst (i :: r) other (.cons hlex) ⟨i, r, field, rfl, hi, hr⟩
    · cases he : encodeValue earlier.1 earlier.2 with
      | ok e => exact ⟨e, he⟩
      | error other =>
        obtain ⟨r, hr, -⟩ := (hfield earlier (List.mem_of_getElem? hearlier) other).mp he
        exact absurd ⟨j, r, earlier, rfl, hearlier, hr⟩ (hfirst (j :: r) other (.rel hj))

theorem foremost_root_iff (h : ∀ p fault, OffenceIn t v p fault ↔ p = [] ∧ encodeValue t v = .error fault) :
    encodeValue t v = .error fault ↔ ∃ p, Foremost (OffenceIn t v) p fault := by
  constructor
  · intro hfault
    refine ⟨[], (h [] fault).mpr ⟨rfl, hfault⟩, fun q other hlex => ?_⟩
    cases hlex
  · rintro ⟨p, hp, -⟩
    exact ((h p fault).mp hp).2

theorem foremost_leaf_iff (ht : t.elem? = none) :
    encodeValue t v = .error fault ↔ ∃ p, Foremost (OffenceIn t v) p fault := by
  apply foremost_root_iff
  intro p fault
  constructor
  · intro h
    cases h with
    | leaf _ h => exact ⟨rfl, h⟩
    | form hform => simp [ht] at hform
    | count | fixedItem | item => simp [ParamType.elem?] at ht
  · rintro ⟨rfl, h⟩
    exact .leaf ht h

theorem foremost_form_iff (ht : t.elem? = some elem) (hv : ∀ items, v ≠ .array items) :
    encodeValue t v = .error fault ↔ ∃ p, Foremost (OffenceIn t v) p fault := by
  have hfault : encodeValue t v = .error (.badValue (.wrongForm (.array elem) v)) := by
    have hitems : itemsOf elem v = .error (.badValue (.wrongForm (.array elem) v)) := by
      cases v with
      | array items => exact absurd rfl (hv items)
      | _ => rfl
    cases t with
    | fixedArray | array =>
      obtain rfl := Option.some.inj ht
      rw [encodeValue, hitems]
    | _ => simp [ParamType.elem?] at ht
  apply foremost_root_iff
  intro p fault
  rw [hfault]
  constructor
  · intro h
    cases h with
    | leaf hleaf => simp [ht] at hleaf
    | form hform =>
      obtain rfl := Option.some.inj (ht.symm.trans hform)
      exact ⟨rfl, rfl⟩
    | count | fixedItem | item => exact absurd rfl (hv _)
  · rintro ⟨rfl, ⟨⟩⟩
    exact .form ht hv

theorem foremost_count_iff (hn : items.length ≠ n) :
    encodeValue (.fixedArray elem n) (.array items) = .error fault ↔
      ∃ p, Foremost (OffenceIn (.fixedArray elem n) (.array items)) p fault := by
  apply foremost_root_iff
  intro p fault
  rw [encodeValue_fixedArray, if_pos hn]
  constructor
  · intro h
    cases h with
    | leaf ht => simp [ParamType.elem?] at ht
    | form _ hv => exact absurd rfl (hv items)
    | count => exact ⟨rfl, rfl⟩
    | fixedItem hlen => exact absurd hlen hn
  · rintro ⟨rfl, ⟨⟩⟩
    exact .count hn

theorem offenceIn_items_iff (hitem : ∀ p fault, OffenceIn t (.array items) p fault ↔
      ∃ i q v, p = i :: q ∧ items[i]? = some v ∧ OffenceIn elem v q fault) :
    OffenceIn t (.array items) = OffenceAt (List.replicate items.length elem) items := by
  funext p fault
  unfold OffenceAt
  rw [hitem, zip_items]
  simp only [List.getElem?_map, Option.map_eq_some_iff, eq_iff_iff]
  constructor
  · rintro ⟨i, q, v, rfl, hv, h⟩
    exact ⟨i, q, (elem, v), rfl, ⟨v, hv, rfl⟩, h⟩
  · rintro ⟨i, q, _, rfl, ⟨v, hv, rfl⟩, h⟩
    exact ⟨i, q, v, rfl, hv, h⟩

theorem offenceIn_fixedArray : OffenceIn (.fixedArray elem items.length) (.array items) =
    OffenceAt (List.replicate items.length elem) items := by
  apply offenceIn_items_iff
  intro p fault
  constructor
  · intro h
    cases h with
    | leaf ht => simp [ParamType.elem?] at ht
    | form _ hv => exact absurd rfl (hv items)
    | count hn => exact absurd rfl hn
    | fixedItem _ hv h => exact ⟨_, _, _, rfl, hv, h⟩
  · rintro ⟨i, q, v, rfl, hv, h⟩
    exact .fixedItem rfl hv h

theorem offenceIn_array : OffenceIn (.array elem) (.array items) =
    OffenceAt (List.replicate items.length elem) items := by
  apply offenceIn_items_iff
  intro p fault
  constructor
  · intro h
    cases h with
    | leaf ht => simp [ParamType.elem?] at ht
    | form _ hv => exact absurd rfl (hv items)
    | item hv h => exact ⟨_, _, _, rfl, hv, h⟩
  · rintro ⟨i, q, v, rfl, hv, h⟩
    exact .item hv h

theorem foremost_items_iff (hroom : items.length * elem.headSize < 2 ^ 63) (hitem : ∀ v ∈ items, ∀ fault,
      encodeValue elem v = .error fault ↔ ∃ p, Foremost (OffenceIn elem v) p fault) :
    encode (List.replicate items.length elem) items = .error fault ↔
      ∃ p, Foremost (OffenceAt (List.replicate items.length elem) items) p fault := by
  rw [← firstFailing_iff_foremost, encode_items_error_iff hroom]
  · simp only [firstFailing_items]
  · intro field hfield
    rw [zip_items] at hfield
    obtain ⟨v, hv, rfl⟩ := List.mem_map.mp hfield
    exact hitem v hv

/-- The fault of a value is the foremost one inside of it. -/
theorem foremost_value_iff (hroom : Roomy t v) :
    encodeValue t v = .error fault ↔ ∃ p, Foremost (OffenceIn t v) p fault := by
  induction t using ParamType.codecInduction generalizing v fault with
  | scalar t ht =>
    apply foremost_leaf_iff
    cases t <;> first | rfl | simp [ParamType.isScalar] at ht
  | function | bytes | string => exact foremost_leaf_iff rfl
  | fixedArray elem n ih =>
    cases v with
    | array items =>
      by_cases hn : items.length = n
      · subst hn
        obtain ⟨hhead, hitems⟩ := hroom rfl
        rw [encodeValue_fixedArray_error_iff rfl, offenceIn_fixedArray]
        exact foremost_items_iff hhead fun v hv _ => ih (hitems v hv)
      · exact foremost_count_iff hn
    | _ => exact foremost_form_iff rfl (by simp)
  | array elem ih =>
    cases v with
    | array items =>
      obtain ⟨hhead, hitems⟩ := hroom
      rw [encodeValue_array_error_iff, offenceIn_array]
      exact foremost_items_iff hhead fun v hv _ => ih (hitems v hv)
    | _ => exact foremost_form_iff rfl (by simp)

/-! ## The encoder -/

theorem FirstFailing.replaced {rest : List Value} (h : FirstFailing ts vs i fault) :
    FirstFailing ts (vs.take (i + 1) ++ rest) i fault := by
  apply FirstRefused.of_take h
  obtain ⟨field, hfield, -⟩ := h.here
  obtain ⟨hi, -⟩ := List.getElem?_eq_some_iff.mp hfield
  rw [List.length_zip] at hi
  have hlen : (vs.take (i + 1)).length = i + 1 := by
    rw [List.length_take]
    omega
  rw [List.zip, List.take_zipWith, List.take_zipWith, List.take_left' hlen]

/-- A wrong number of values is told before any of them is looked at. Otherwise the fault of values with
small heads is the one of the first of them that has no encoding, whatever stands behind it, and of an
array it is the one of its first such item. So it is the foremost fault of all, from left to right and
at every depth. -/
theorem encode_first_offence (types : List ParamType) (values : List Value) :
    (types.length ≠ values.length → encode types values = .error (.arity types.length values.length)) ∧
    (types.length = values.length → RoomyTuple types values →
      ((∃ fault, encode types values = .error fault) ↔
        ∃ field ∈ types.zip values, ∃ fault, encodeValue field.1 field.2 = .error fault) ∧
      (∀ fault, encode types values = .error fault ↔ ∃ i, FirstFailing types values i fault) ∧
      (∀ i fault rest, FirstFailing types values i fault → (values.take (i + 1) ++ rest).length = types.length →
        encode types (values.take (i + 1) ++ rest) = .error fault) ∧
      ∀ fault, encode types values = .error fault ↔ ∃ p, Foremost (OffenceAt types values) p fault) ∧
    ∀ elem items, items.length * elem.headSize < 2 ^ 63 → ∀ fault,
      (encodeValue (.fixedArray elem items.length) (.array items) = .error fault ↔
        ∃ i, FirstError (encodeValue elem) items i fault) ∧
      (encodeValue (.array elem) (.array items) = .error fault ↔
        ∃ i, FirstError (encodeValue elem) items i fault) := by
  refine ⟨fun hlen => if_pos hlen, fun hlen hroom => ?_, fun elem items hroom fault => ?_⟩
  · have hmax := lt_maxSize hroom.head
    have hfirst (vs : List Value) (hvs : types.length = vs.length) (fault : Fault) :
        encode types vs = .error fault ↔ ∃ i, FirstFailing types vs i fault := encode_error_iff hvs (by omega)
    refine ⟨⟨?_, ?_⟩, hfirst values hlen, fun i fault rest h hrest => ?_, fun fault => ?_⟩
    · rintro ⟨fault, h⟩
      obtain ⟨i, ⟨field, hi, hfault⟩, -⟩ := (hfirst values hlen fault).mp h
      exact ⟨field, List.mem_of_getElem? hi, fault, hfault⟩
    · rintro ⟨field, hfield, fault, hfault⟩
      cases henc : encode types values with
      | error other => exact ⟨other, rfl⟩
      | ok b =>
        obtain ⟨e, he⟩ := exists_ok_of_encode henc hfield
        simp [hfault] at he
    · exact (hfirst _ hrest.symm fault).mpr ⟨i, h.replaced⟩
    · rw [hfirst values hlen fault]
      exact firstFailing_iff_foremost fun field hfield _ => foremost_value_iff (hroom.fields field hfield)
  · rw [encodeValue_fixedArray_error_iff rfl, encodeValue_array_error_iff, encode_items_error_iff hroom]
    exact ⟨Iff.rfl, Iff.rfl⟩

/-- A number among texts is found first, although an array among them, and another one in place of a flag,
are no better. The last value could be anything, but it has to be there. -/
theorem encode_first_offence_nested :
    let texts := [Value.string "b", .uint 1, .array []]
    let types := [ParamType.uint 8, .fixedArray (.array .string) 2, .bool]
    let values := [Value.uint 7, .array [.array [.string "a"], .array texts], .array []]
    let fault := Fault.badValue (.wrongForm .string (.uint 1))
    (types.length = values.length ∧ RoomyTuple types values ∧ FirstFailing types values 1 fault ∧
      OffenceAt types values [1, 1, 1] fault ∧
      OffenceAt types values [1, 1, 2] (.badValue (.wrongForm .string (.array []))) ∧
      OffenceAt types values [2] (.badValue (.wrongForm .bool (.array [])))) ∧
    (encode types values = .error fault ∧ encode types (values.take 2 ++ [.string "yes"]) = .error fault ∧
      ∃ p, Foremost (OffenceAt types values) p fault) ∧
    (texts.length * ParamType.string.headSize < 2 ^ 63 ∧
      encodeValue (.array .string) (.array texts) = .error fault) ∧
    encode types (values.take 2) = .error (.arity 3 2) := by
  intro texts types values fault
  have hroom : RoomyTuple types values := by
    refine ⟨by decide, fun field hfield => ?_⟩
    simp only [types, values, List.zip_cons_cons, List.zip_nil_right, List.mem_cons, List.not_mem_nil, or_false] at hfield
    rcases hfield with rfl | rfl | rfl
    · trivial
    · simp [Roomy, texts, ParamType.headSize, ParamType.isDynamic, wordSize]
    · trivial
  have hfirst : FirstFailing types values 1 fault := by
    refine ⟨⟨_, rfl, rfl⟩, fun j field hj hfield => ?_⟩
    obtain rfl : j = 0 := by omega
    obtain rfl := Option.some.inj hfield
    exact ⟨_, rfl⟩
  have htexts : FirstError (encodeValue .string) texts 1 fault := by
    refine ⟨⟨_, rfl, rfl⟩, fun j v hj hv => ?_⟩
    obtain rfl : j = 0 := by omega
    obtain rfl := Option.some.inj hv
    exact ⟨_, rfl⟩
  obtain ⟨-, hvalues, harrays⟩ := encode_first_offence types values
  obtain ⟨-, htold, hreplaced, hforemost⟩ := hvalues rfl hroom
  obtain ⟨hcount, -, -⟩ := encode_first_offence types (values.take 2)
  have hfault := (htold fault).mpr ⟨1, hfirst⟩
  refine ⟨⟨rfl, hroom, hfirst, ?_, ?_, ?_⟩, ⟨hfault, hreplaced 1 fault _ hfirst rfl, (hforemost fault).mp hfault⟩,
    ⟨by decide, ((harrays _ texts (by decide) fault).2.mpr ⟨1, htexts⟩)⟩, hcount (by decide)⟩
  · exact ⟨1, [1, 1], _, rfl, rfl, .fixedItem rfl rfl (.item rfl (.leaf rfl rfl))⟩
  · exact ⟨1, [1, 2], _, rfl, rfl, .fixedItem rfl rfl (.item rfl (.leaf rfl rfl))⟩
  · exact ⟨2, [], _, rfl, rfl, .leaf rfl rfl⟩

end Calldata
