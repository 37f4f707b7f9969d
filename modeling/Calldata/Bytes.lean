/-!
# Byte strings and words

A payload is a list of bytes. Numbers stand in it big-endian, in words of 32 bytes.
-/

namespace Calldata

abbrev Bytes := List UInt8

abbrev Word := BitVec 256

/-- The size of a word in bytes. -/
def wordSize : Nat := 32

/-- The largest length, count or offset that a payload may name. -/
def maxSize : Nat := 1 <<< 64 - 1

/-- The number of words that `n` bytes fill once they are padded. -/
def wordsFor (n : Nat) : Nat := (n + (wordSize - 1)) / wordSize

/-! ## Numbers -/

/-- The last `width` bytes of a number, most significant first. -/
def bigEndian : (width n : Nat) → Bytes
  | 0, _ => []
  | width + 1, n => bigEndian width (n / 256) ++ [UInt8.ofNat n]

/-- The number that a byte string spells, most significant byte first. -/
def ofBigEndian (bs : Bytes) : Nat := bs.foldl (fun n b => 256 * n + b.toNat) 0

def wordBytes (w : Word) : Bytes := bigEndian wordSize w.toNat

def wordOfBytes (bs : Bytes) : Word := BitVec.ofNat 256 (ofBigEndian bs)

@[simp] theorem length_bigEndian (width n : Nat) : (bigEndian width n).length = width := by
  induction width generalizing n with
  | zero => rfl
  | succ width ih => simp [bigEndian, ih]

@[simp] theorem length_wordBytes (w : Word) : (wordBytes w).length = wordSize := by
  simp [wordBytes]

@[simp] theorem ofBigEndian_nil : ofBigEndian [] = 0 := rfl

theorem ofBigEndian_append_singleton (bs : Bytes) (b : UInt8) :
    ofBigEndian (bs ++ [b]) = 256 * ofBigEndian bs + b.toNat := by
  simp [ofBigEndian]

/-! ## Padding -/

def zeros (n : Nat) : Bytes := List.replicate n 0

/-- Fills up to `width` bytes with zeros in front. -/
def padLeft (width : Nat) (bs : Bytes) : Bytes := zeros (width - bs.length) ++ bs

/-- Fills up to `width` bytes with zeros behind. -/
def padRight (width : Nat) (bs : Bytes) : Bytes := bs ++ zeros (width - bs.length)

@[simp] theorem length_zeros (n : Nat) : (zeros n).length = n := by simp [zeros]

theorem length_padLeft {width : Nat} {bs : Bytes} (h : bs.length ≤ width) :
    (padLeft width bs).length = width := by
  simp [padLeft]; omega

theorem length_padRight {width : Nat} {bs : Bytes} (h : bs.length ≤ width) :
    (padRight width bs).length = width := by
  simp [padRight]; omega

end Calldata
