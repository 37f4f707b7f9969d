import Calldata.Fault

/-!
# Payloads

Reading words, sizes and byte strings at an offset of a payload, and the budget of a decode. An
offset may be hostile, so nothing is read beyond the data and no end is computed that could not
be named.
-/

namespace Calldata

namespace Payload

/-- The `length` bytes at `offset`. -/
def slice (data : Bytes) (offset length : Nat) : Except Fault Bytes :=
  let stop := offset + length
  if maxSize < stop then .error (.shortData maxSize data.length)
  else if data.length < stop then .error (.shortData stop data.length)
  else .ok ((data.drop offset).take length)

/-- The word at `offset`. -/
def word (data : Bytes) (offset : Nat) : Except Fault Word :=
  (slice data offset wordSize).map wordOfBytes

/-- The length, count or offset in the word at `offset`. -/
def size (data : Bytes) (offset : Nat) : Except Fault Nat :=
  match word data offset with
  | .error e => .error e
  | .ok w =>
    if maxSize < w.toNat then .error (.badLength (.word w.toNat offset)) else .ok w.toNat

/-- The byte string whose length stands at `offset`. -/
def blob (data : Bytes) (offset : Nat) : Except Fault Bytes :=
  match size data offset with
  | .error e => .error e
  | .ok n => slice data (offset + wordSize) n

/-- The text whose length stands at `offset`. -/
def text (data : Bytes) (offset : Nat) : Except Fault String :=
  match blob data offset with
  | .error e => .error e
  | .ok bs =>
    match Text.ofUtf8 bs with
    | .ok s => .ok s
    | .error cause => .error (.badUtf8 cause)

/-- A byte string behind its length, filled up to whole words. -/
def encodeBlob (bs : Bytes) : Bytes :=
  bigEndian wordSize bs.length ++ bs ++ zeros (wordsFor bs.length * wordSize - bs.length)

/-- Refuses `count` slots of `slotSize` bytes from `start` on when the data end before them. -/
def checkRoom (slotSize count : Nat) (data : Bytes) (start : Nat) : Except Fault Unit :=
  let needed := Nat.min (slotSize * count + start) maxSize
  if data.length < needed then .error (.shortData needed data.length) else .ok ()

end Payload

/-! ## Budgets -/

/-- How many words a decode may still produce. Offsets may share data, so the output could
outgrow the payload without a bound. -/
inductive Budget where
  | unlimited
  | limited (limit remaining : Nat)
  deriving DecidableEq, Repr

/-- The words that may be produced for each word of a payload. -/
def amplification : Nat := 2

namespace Budget

def ofPayload (data : Bytes) : Budget :=
  let limit := Nat.min (amplification * wordsFor data.length) maxSize
  limited limit limit

/-- Takes `words` words out of the budget. -/
def charge (words : Nat) : Budget → Except Fault Budget
  | unlimited => .ok unlimited
  | limited limit remaining =>
    if words ≤ remaining then .ok (limited limit (remaining - words))
    else .error (.tooMuchOutput limit)

end Budget

/-- A decoding step: it may fail, and it spends from a budget. -/
abbrev Decode := StateT Budget (Except Fault)

/-- Spends `words` words. -/
def spend (words : Nat) : Decode Unit := fun b => (b.charge words).map ((), ·)

end Calldata
