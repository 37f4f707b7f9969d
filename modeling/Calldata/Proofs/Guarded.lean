import Calldata.Codec
import Calldata.Machine
import Calldata.Proofs.Forms

/-!
# The decoder on a machine

The same decoder with the arithmetic of 64 bits, and with slices and lists as a machine has them. A
sum that 64 bits cannot hold, a slice that is not inside of the data, and a list with more elements
than the data have words end in a trap. Some sums may be too large because the data are hostile:
these are looked at first, and reported as faults.
-/

namespace Calldata

/-- A decoding step on a machine. -/
abbrev Guarded := StateT Budget (Except Stop)

namespace Guarded

variable {α : Type}

/-! ## Lists -/

/-- The bytes from `start` to `stop`. -/
def between (data : Bytes) (start stop : Nat) : Except Stop Bytes :=
  if start ≤ stop ∧ stop ≤ data.length then .ok ((data.drop start).take (stop - start))
  else .error (.trap (.outside start stop))

/-- A list with `count` entries for the elements of an array. -/
def entries (data : Bytes) (count : Nat) (entry : α) : Except Stop (List α) :=
  if count ≤ data.length / wordSize then .ok (List.replicate count entry)
  else .error (.trap (.longList count))

/-! ## Reading -/

def slice (data : Bytes) (offset length : Nat) : Except Stop Bytes :=
  match checkedAdd offset length with
  | none => .error (.fault (.shortData maxSize data.length))
  | some stop =>
    if data.length < stop then .error (.fault (.shortData stop data.length))
    else between data offset stop

def word (data : Bytes) (offset : Nat) : Except Stop Word := do
  let bs ← slice data offset wordSize
  pure (wordOfBytes bs)

def size (data : Bytes) (offset : Nat) : Except Stop Nat := do
  let w ← word data offset
  if maxSize < w.toNat then .error (.fault (.badLength (.word w.toNat offset))) else pure w.toNat

def blob (data : Bytes) (offset : Nat) : Except Stop Bytes := do
  let n ← size data offset
  let start ← add offset wordSize
  slice data start n

def text (data : Bytes) (offset : Nat) : Except Stop String := do
  let bs ← blob data offset
  match Text.ofUtf8 bs with
  | .ok s => pure s
  | .error cause => .error (.fault (.badUtf8 cause))

def checkRoom (slotSize count : Nat) (data : Bytes) (start : Nat) : Except Stop Unit :=
  let needed := ((checkedMul slotSize count).bind (checkedAdd · start)).getD maxSize
  if data.length < needed then .error (.fault (.shortData needed data.length)) else .ok ()

/-- The position of a dynamic value whose offset from `base` stands at `cursor`. -/
def locate (data : Bytes) (base cursor : Nat) : Except Stop Nat := do
  let offset ← size data cursor
  match checkedAdd base offset with
  | none => .error (.fault (.shortData maxSize data.length))
  | some position => pure position

def place (data : Bytes) (base cursor : Nat) (slot : Slot) : Except Stop Nat :=
  if slot.dynamic then locate data base cursor else .ok cursor

/-! ## Decoding -/

def spend (words : Nat) : Guarded Unit := fun b =>
  match b.charge words with
  | .ok b' => .ok ((), b')
  | .error e => .error (.fault e)

def decodeFrom (data : Bytes) (base : Nat) :
    (cursor : Nat) → List (Slot × (Nat → Guarded Value)) → Guarded (List Value)
  | _, [] => pure []
  | cursor, (slot, read) :: rest => do
    let position ← place data base cursor slot
    let v ← read position
    let next ← add cursor slot.size
    let vs ← decodeFrom data base next rest
    pure (v :: vs)

/-- The items of an array, from their count on. -/
def decodeItems (data : Bytes) (slot : Slot) (read : Nat → Guarded Value) (count start : Nat) :
    Guarded Value := do
  checkRoom slot.size count data start
  let components ← entries data count (slot, read)
  let items ← decodeFrom data start start components
  pure (.array items)

def decodeAt (data : Bytes) : ParamType → (offset : Nat) → Guarded Value
  | .function, _ => throw (.fault .functionNotDecodable)
  | .bytes, o => do
    let bs ← blob data o
    let words ← add 1 (wordsFor bs.length)
    spend words
    pure (.bytes bs)
  | .string, o => do
    let s ← text data o
    let words ← add 1 (wordsFor (Text.utf8 s).length)
    spend words
    pure (.string s)
  | .fixedArray elem n, o => decodeItems data elem.slot (decodeAt data elem) n o
  | .array elem, o => do
    let n ← size data o
    spend 1
    let start ← add o wordSize
    decodeItems data elem.slot (decodeAt data elem) n start
  | t, o => do
    let w ← word data o
    spend 1
    pure (t.valueOfWord w)

def decodeFields (data : Bytes) (base cursor : Nat) (types : List ParamType) : Guarded (List Value) :=
  decodeFrom data base cursor (types.map fun t => (t.slot, decodeAt data t))

def decodeValue (t : ParamType) (data : Bytes) (offset : Nat) : Except Stop Value :=
  (decodeAt data t offset).run' (Budget.ofPayload data)

def decode (types : List ParamType) (data : Bytes) : Except Stop (List Value) :=
  (decodeFields data 0 0 types).run' (Budget.ofPayload data)

end Guarded

end Calldata
