import Calldata.Payload
import Mathlib.Algebra.Order.Ring.Nat
import Mathlib.Data.List.Induction

/-!
# Reading a payload

`Holds data o bs` says that `bs` stand at `o`. A slice, a word, a size or a blob is read exactly
where its bytes stand. Data that were cut off give the same reading, or the fault that says how
many bytes it needs.
-/

namespace Calldata

theorem map_ok_iff {α β : Type} {f : α → β} {x : Except Fault α} {b : β} :
    x.map f = .ok b ↔ ∃ a, x = .ok a ∧ f a = b := by
  cases x <;> simp [Except.map]

theorem bind_ok_iff {ε α β : Type} {x : Except ε α} {f : α → Except ε β} {b : β} :
    x >>= f = .ok b ↔ ∃ a, x = .ok a ∧ f a = .ok b := by
  cases x <;> simp [bind, Except.bind]

theorem map_error_iff {α β : Type} {f : α → β} {x : Except Fault α} {e : Fault} :
    x.map f = .error e ↔ x = .error e := by
  cases x <;> simp [Except.map]

/-! ## Words -/

theorem ofBigEndian_bigEndian (width n : Nat) :
    ofBigEndian (bigEndian width n) = n % 256 ^ width := by
  induction width generalizing n with
  | zero => simp [bigEndian, Nat.mod_one]
  | succ width ih =>
    have last : (UInt8.ofNat n).toNat = n % 256 := UInt8.toNat_ofNat'
    rw [bigEndian, ofBigEndian_append_singleton, last, ih, Nat.pow_succ', Nat.mod_mul,
      Nat.add_comm]

theorem wordOfBytes_wordBytes (w : Word) : wordOfBytes (wordBytes w) = w := by
  have h : w.toNat % 256 ^ wordSize = w.toNat := Nat.mod_eq_of_lt w.isLt
  rw [wordOfBytes, wordBytes, ofBigEndian_bigEndian, h, BitVec.ofNat_toNat, BitVec.setWidth_eq]

theorem ofBigEndian_lt (bs : Bytes) : ofBigEndian bs < 256 ^ bs.length := by
  induction bs using List.reverseRecOn with
  | nil => simp
  | append_singleton bs b ih =>
    have hb : b.toNat < 256 := b.toNat_lt
    rw [ofBigEndian_append_singleton, List.length_append, List.length_singleton, Nat.pow_succ]
    omega

theorem bigEndian_ofBigEndian (bs : Bytes) : bigEndian bs.length (ofBigEndian bs) = bs := by
  induction bs using List.reverseRecOn with
  | nil => rfl
  | append_singleton bs b ih =>
    have hb : b.toNat < 256 := b.toNat_lt
    have hdiv : (256 * ofBigEndian bs + b.toNat) / 256 = ofBigEndian bs := by omega
    have hlast : UInt8.ofNat (256 * ofBigEndian bs + b.toNat) = b := by
      apply UInt8.toNat_inj.mp
      rw [UInt8.toNat_ofNat']
      omega
    rw [List.length_append, List.length_singleton, bigEndian, ofBigEndian_append_singleton, hdiv,
      hlast, ih]

theorem wordBytes_wordOfBytes {bs : Bytes} (h : bs.length = wordSize) :
    wordBytes (wordOfBytes bs) = bs := by
  have hlt : ofBigEndian bs < 2 ^ 256 := by
    have := ofBigEndian_lt bs
    rwa [h] at this
  rw [wordBytes, wordOfBytes, BitVec.toNat_ofNat, Nat.mod_eq_of_lt hlt, ← h, bigEndian_ofBigEndian]

theorem wordBytes_ofNat {n : Nat} (h : n < 2 ^ 256) :
    wordBytes (BitVec.ofNat 256 n) = bigEndian wordSize n := by
  rw [wordBytes, BitVec.toNat_ofNat, Nat.mod_eq_of_lt h]

/-! ## Bytes at an offset -/

/-- The bytes stand at the offset. -/
structure Holds (data : Bytes) (offset : Nat) (bs : Bytes) : Prop where
  le : offset + bs.length ≤ data.length
  take_drop : (data.drop offset).take bs.length = bs

variable {data x y bs : Bytes} {o k n : Nat}

theorem lt_maxSize (h : n < 2 ^ 63) : n < maxSize := by
  simp only [maxSize]
  omega

theorem holds_self (bs : Bytes) : Holds bs 0 bs where
  le := by simp
  take_drop := by simp

theorem holds_append :
    Holds data o (x ++ y) ↔ Holds data o x ∧ Holds data (o + x.length) y := by
  constructor
  · rintro ⟨hle, heq⟩
    rw [List.length_append] at hle
    rw [List.length_append, List.take_add, List.drop_drop] at heq
    have hx : ((data.drop o).take x.length).length = x.length := by simp; omega
    obtain ⟨h1, h2⟩ := List.append_inj heq hx
    exact ⟨⟨by omega, h1⟩, ⟨by omega, h2⟩⟩
  · rintro ⟨⟨_, hx⟩, ⟨hle, hy⟩⟩
    refine ⟨by rw [List.length_append]; omega, ?_⟩
    rw [List.length_append, List.take_add, List.drop_drop, hx, hy]

theorem holds_framed (pre bs post : Bytes) : Holds (pre ++ bs ++ post) pre.length bs where
  le := by simp
  take_drop := by simp

theorem holds_take_iff : Holds (data.take k) o bs ↔ Holds data o bs ∧ o + bs.length ≤ k := by
  have hdrop (h : o + bs.length ≤ k) :
      ((data.take k).drop o).take bs.length = (data.drop o).take bs.length := by
    rw [List.drop_take, List.take_take, Nat.min_eq_left (by omega)]
  constructor
  · rintro ⟨hle, heq⟩
    rw [List.length_take] at hle
    have hk : o + bs.length ≤ k := by omega
    exact ⟨⟨by omega, (hdrop hk) ▸ heq⟩, hk⟩
  · rintro ⟨⟨hle, heq⟩, hk⟩
    exact ⟨by rw [List.length_take]; omega, (hdrop hk).trans heq⟩

namespace Payload

/-! ## What is read -/

theorem slice_ok_iff :
    slice data o n = .ok bs ↔ bs.length = n ∧ o + n ≤ maxSize ∧ Holds data o bs := by
  simp only [slice]
  split
  · simp; omega
  split
  · simp only [reduceCtorEq, false_iff]
    rintro ⟨rfl, -, h⟩
    have := h.le
    omega
  · rename_i hmax hlen
    simp only [Except.ok.injEq]
    constructor
    · rintro rfl
      have hn : ((data.drop o).take n).length = n := by simp; omega
      exact ⟨hn, by omega, by omega, by rw [hn]⟩
    · rintro ⟨rfl, -, h⟩
      exact h.take_drop

theorem word_ok_iff {w : Word} :
    word data o = .ok w ↔ o + wordSize ≤ maxSize ∧ Holds data o (wordBytes w) := by
  rw [word, map_ok_iff]
  constructor
  · rintro ⟨bs, hs, rfl⟩
    obtain ⟨hlen, hmax, hb⟩ := slice_ok_iff.mp hs
    rw [wordBytes_wordOfBytes hlen]
    exact ⟨hmax, hb⟩
  · rintro ⟨hmax, h⟩
    exact ⟨wordBytes w, slice_ok_iff.mpr ⟨length_wordBytes w, hmax, h⟩, wordOfBytes_wordBytes w⟩

theorem size_ok_iff :
    size data o = .ok n ↔
      n ≤ maxSize ∧ o + wordSize ≤ maxSize ∧ Holds data o (bigEndian wordSize n) := by
  have small (h : n ≤ maxSize) : n < 2 ^ 256 := by simp only [maxSize] at h; omega
  rw [size]
  constructor
  · intro h
    cases hw : word data o with
    | error e => simp [hw] at h
    | ok w =>
      obtain ⟨hmax, hb⟩ := word_ok_iff.mp hw
      simp only [hw] at h
      split at h
      · simp at h
      · simp only [Except.ok.injEq] at h
        subst h
        exact ⟨by omega, hmax, hb⟩
  · rintro ⟨hn, hmax, h⟩
    rw [← wordBytes_ofNat (small hn)] at h
    rw [word_ok_iff.mpr ⟨hmax, h⟩]
    simp only [BitVec.toNat_ofNat, Nat.mod_eq_of_lt (small hn), if_neg (Nat.not_lt.mpr hn)]

theorem blob_ok_iff :
    blob data o = .ok bs ↔
      o + wordSize + bs.length ≤ maxSize ∧ Holds data o (bigEndian wordSize bs.length ++ bs) := by
  rw [blob, holds_append, length_bigEndian]
  constructor
  · intro h
    cases hn : size data o with
    | error e => simp [hn] at h
    | ok n =>
      obtain ⟨-, -, hw⟩ := size_ok_iff.mp hn
      simp only [hn] at h
      obtain ⟨rfl, hmax, hb⟩ := slice_ok_iff.mp h
      exact ⟨hmax, hw, hb⟩
  · rintro ⟨hmax, hw, hb⟩
    rw [size_ok_iff.mpr ⟨by omega, by omega, hw⟩]
    exact slice_ok_iff.mpr ⟨rfl, hmax, hb⟩

theorem text_ok_iff {s : String} : text data o = .ok s ↔ blob data o = .ok (Text.utf8 s) := by
  rw [text]
  cases hb : blob data o with
  | error e => simp
  | ok bs =>
    simp only [Except.ok.injEq]
    constructor
    · intro h
      cases hs : Text.ofUtf8 bs with
      | error e => simp [hs] at h
      | ok t =>
        simp only [hs, Except.ok.injEq] at h
        rw [← h, Text.utf8_of_ofUtf8 hs]
    · rintro rfl
      rw [Text.ofUtf8_utf8]

theorem checkRoom_ok_iff {slotSize count : Nat} :
    checkRoom slotSize count data o = .ok () ↔
      min (slotSize * count + o) maxSize ≤ data.length := by
  simp only [checkRoom, Nat.min_def]
  split <;> split <;> simp <;> omega

/-! ## Readers in steps -/

theorem size_eq (data : Bytes) (o : Nat) : size data o = (do
    let w ← word data o
    if maxSize < w.toNat then .error (.badLength (.word w.toNat o)) else pure w.toNat) := by
  unfold size
  cases word data o <;> rfl

theorem blob_eq (data : Bytes) (o : Nat) : blob data o = (do
    let n ← size data o
    slice data (o + wordSize) n) := by
  unfold blob
  cases size data o <;> rfl

theorem text_eq (data : Bytes) (o : Nat) : text data o = (do
    let bs ← blob data o
    match Text.ofUtf8 bs with
    | .ok s => pure s
    | .error cause => .error (.badUtf8 cause)) := by
  unfold text
  cases blob data o with
  | error e => rfl
  | ok bs => rfl

/-! ## Data that were cut off -/

/-- A reading that runs into the cut at `k`: it needs more data than are left, but no more than
there were. -/
def Stops {α : Type} (k total : Nat) (x : Except Fault α) : Prop :=
  ∃ needed, x = .error (.shortData needed k) ∧ k < needed ∧ needed ≤ total

theorem Stops.map {α β : Type} {k total : Nat} {x : Except Fault α} (h : Stops k total x) (f : α → β) :
    Stops k total (x.map f) := by
  obtain ⟨needed, rfl, hk⟩ := h
  exact ⟨needed, rfl, hk⟩

theorem slice_take (hk : k ≤ data.length) (h : slice data o n = .ok bs) :
    (o + n ≤ k ∧ slice (data.take k) o n = .ok bs) ∨ Stops k data.length (slice (data.take k) o n) := by
  obtain ⟨rfl, hmax, hb⟩ := slice_ok_iff.mp h
  by_cases hend : o + bs.length ≤ k
  · exact .inl ⟨hend, slice_ok_iff.mpr ⟨rfl, hmax, holds_take_iff.mpr ⟨hb, hend⟩⟩⟩
  · refine .inr ⟨o + bs.length, ?_, by omega, hb.le⟩
    have hlen : (data.take k).length = k := by rw [List.length_take, Nat.min_eq_left hk]
    simp only [slice, hlen, if_neg (Nat.not_lt.mpr hmax), if_pos (Nat.lt_of_not_le hend)]

theorem word_take {w : Word} (hk : k ≤ data.length) (h : word data o = .ok w) :
    (o + wordSize ≤ k ∧ word (data.take k) o = .ok w) ∨ Stops k data.length (word (data.take k) o) := by
  obtain ⟨hmax, hb⟩ := word_ok_iff.mp h
  rcases slice_take hk (slice_ok_iff.mpr ⟨length_wordBytes w, hmax, hb⟩) with ⟨hend, -⟩ | hs
  · refine .inl ⟨hend, word_ok_iff.mpr ⟨hmax, holds_take_iff.mpr ⟨hb, ?_⟩⟩⟩
    rwa [length_wordBytes]
  · exact .inr (hs.map _)

theorem size_take (hk : k ≤ data.length) (h : size data o = .ok n) :
    (o + wordSize ≤ k ∧ size (data.take k) o = .ok n) ∨ Stops k data.length (size (data.take k) o) := by
  obtain ⟨hn, hmax, hb⟩ := size_ok_iff.mp h
  have hw : word data o = .ok (BitVec.ofNat 256 n) := by
    rw [word_ok_iff, wordBytes_ofNat (by simp only [maxSize] at hn; omega)]
    exact ⟨hmax, hb⟩
  rcases word_take hk hw with ⟨hend, -⟩ | ⟨needed, hs, hneeded⟩
  · refine .inl ⟨hend, size_ok_iff.mpr ⟨hn, hmax, holds_take_iff.mpr ⟨hb, ?_⟩⟩⟩
    rwa [length_bigEndian]
  · exact .inr ⟨needed, by rw [size, hs], hneeded⟩

theorem blob_take (hk : k ≤ data.length) (h : blob data o = .ok bs) :
    (o + wordSize + bs.length ≤ k ∧ blob (data.take k) o = .ok bs) ∨
      Stops k data.length (blob (data.take k) o) := by
  obtain ⟨hmax, hb⟩ := blob_ok_iff.mp h
  obtain ⟨hsize, hbytes⟩ := holds_append.mp hb
  rw [length_bigEndian] at hbytes
  have hn : size data o = .ok bs.length := size_ok_iff.mpr ⟨by omega, by omega, hsize⟩
  rcases size_take hk hn with ⟨-, hs⟩ | ⟨needed, hs, hneeded⟩
  · simp only [blob, hs]
    exact slice_take hk (slice_ok_iff.mpr ⟨rfl, hmax, hbytes⟩)
  · exact .inr ⟨needed, by rw [blob, hs], hneeded⟩

theorem text_take {s : String} (hk : k ≤ data.length) (h : text data o = .ok s) :
    (o + wordSize + (Text.utf8 s).length ≤ k ∧ text (data.take k) o = .ok s) ∨
      Stops k data.length (text (data.take k) o) := by
  rcases blob_take hk (text_ok_iff.mp h) with ⟨hend, hs⟩ | ⟨needed, hs, hneeded⟩
  · exact .inl ⟨hend, text_ok_iff.mpr hs⟩
  · exact .inr ⟨needed, by rw [text, hs], hneeded⟩

theorem checkRoom_take {slotSize count : Nat} (hk : k ≤ data.length)
    (h : checkRoom slotSize count data o = .ok ()) :
    checkRoom slotSize count (data.take k) o = .ok () ∨
      Stops k data.length (checkRoom slotSize count (data.take k) o) := by
  have hlen : (data.take k).length = k := by rw [List.length_take, Nat.min_eq_left hk]
  rw [checkRoom_ok_iff] at h
  by_cases hend : min (slotSize * count + o) maxSize ≤ k
  · exact .inl (checkRoom_ok_iff.mpr (by rwa [hlen]))
  · refine .inr ⟨min (slotSize * count + o) maxSize, ?_, by omega, h⟩
    simp only [checkRoom, hlen]
    exact if_pos (Nat.lt_of_not_le hend)

end Payload

end Calldata
