import Calldata.Payload

/-!
# Tuples

Values that belong together are laid out as a head and a tail. The head has one slot for each
value: a static value stands in its slot, a dynamic one in the tail, and its slot holds the
offset of its encoding from the start of the tuple.
-/

namespace Calldata

structure Slot where
  dynamic : Bool
  size : Nat

def ParamType.slot (t : ParamType) : Slot := ⟨t.isDynamic, t.headSize⟩

namespace Tuple

/-! ## Encoding -/

structure Part where
  slot : Slot
  encoding : Bytes

/-- The head of some parts when the next part of the tail goes to `next`. -/
def head (next : Nat) : List Part → Bytes
  | [] => []
  | p :: ps =>
    if p.slot.dynamic then bigEndian wordSize next ++ head (next + p.encoding.length) ps
    else p.encoding ++ head next ps

def tail (ps : List Part) : Bytes := (ps.filter (·.slot.dynamic)).flatMap (·.encoding)

def headSize (slots : List Slot) : Nat := slots.foldr (·.size + ·) 0

def layOut (ps : List Part) : Bytes := head (headSize (ps.map (·.slot))) ps ++ tail ps

/-- The parts of encodings that all succeed, or the first fault. -/
def parts : List (Slot × Except Fault Bytes) → Except Fault (List Part)
  | [] => .ok []
  | (_, .error e) :: _ => .error e
  | (slot, .ok encoding) :: rest => (parts rest).map (⟨slot, encoding⟩ :: ·)

/-- Encodes values from their slots and encodings. The room for the head is checked first. -/
def encode (components : List (Slot × Except Fault Bytes)) : Except Fault Bytes :=
  if maxSize < headSize (components.map (·.1)) then .error (.badLength .head)
  else (parts components).map layOut

/-! ## Decoding -/

/-- The position of a dynamic value whose offset from `base` stands at `cursor`. -/
def locate (data : Bytes) (base cursor : Nat) : Except Fault Nat :=
  match Payload.size data cursor with
  | .error e => .error e
  | .ok offset =>
    if maxSize < base + offset then .error (.shortData maxSize data.length)
    else .ok (base + offset)

/-- Decodes values from their slots and readers, the first slot at `cursor`. -/
def decodeFrom (data : Bytes) (base : Nat) :
    (cursor : Nat) → List (Slot × (Nat → Decode Value)) → Decode (List Value)
  | _, [] => pure []
  | cursor, (slot, read) :: rest => do
    let position ← if slot.dynamic then locate data base cursor else pure cursor
    let v ← read position
    let vs ← decodeFrom data base (cursor + slot.size) rest
    pure (v :: vs)

/-- Decodes the tuple at `base`. -/
def decode (data : Bytes) (base : Nat) (components : List (Slot × (Nat → Decode Value))) :
    Decode (List Value) :=
  decodeFrom data base base components

end Tuple

end Calldata
