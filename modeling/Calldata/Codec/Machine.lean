import Calldata.Codec
import Calldata.Machine

/-!
# The encoder on a machine

The encoder with the arithmetic of 64 bits, which is the one that runs. The room for the heads of a
tuple is looked at before anything is laid out, but the sum of that room and the tail so far, which is
the next offset, is not.
-/

namespace Calldata

namespace Guarded

def encodeBlob (bs : Bytes) : Except Stop Bytes := do
  let padded ← mul (wordsFor bs.length) wordSize
  let size ← add wordSize padded
  let written := bigEndian wordSize bs.length ++ bs
  pure (written ++ zeros (size - written.length))

/-- The room for a head: none when 64 bits cannot hold it. -/
def headRoom (slots : List Slot) : Option Nat := slots.foldlM (fun room slot => checkedAdd room slot.size) 0

/-- Lays out what is left of a tuple behind the head and the tail so far. -/
def encodeFrom (headSize : Nat) (head tail : Bytes) : List (Slot × Except Stop Bytes) → Except Stop Bytes
  | [] => .ok (head ++ tail)
  | (slot, encoded) :: rest => do
    let bs ← encoded
    if slot.dynamic then
      let offset ← add headSize tail.length
      encodeFrom headSize (head ++ bigEndian wordSize offset) (tail ++ bs) rest
    else encodeFrom headSize (head ++ bs) tail rest

def encodeTuple (components : List (Slot × Except Stop Bytes)) : Except Stop Bytes :=
  match headRoom (components.map (·.1)) with
  | none => .error (.fault (.badLength .head))
  | some headSize => encodeFrom headSize [] [] components

def encodeValue : ParamType → Value → Except Stop Bytes
  | .bytes, v => do
    let bs ← plain (dynamicBytesOf v)
    encodeBlob bs
  | .string, v => do
    let s ← plain (textOf v)
    encodeBlob (Text.utf8 s)
  | .fixedArray elem n, v => do
    let items ← plain (itemsOf elem v)
    if items.length ≠ n then .error (.fault (.arity n items.length))
    else encodeTuple (items.map fun item => (elem.slot, encodeValue elem item))
  | .array elem, v => do
    let items ← plain (itemsOf elem v)
    let bs ← encodeTuple (items.map fun item => (elem.slot, encodeValue elem item))
    pure (bigEndian wordSize items.length ++ bs)
  | t, v => plain (Calldata.encodeValue t v)

def encode (types : List ParamType) (values : List Value) : Except Stop Bytes :=
  if types.length ≠ values.length then .error (.fault (.arity types.length values.length))
  else encodeTuple ((types.zip values).map fun field => (field.1.slot, encodeValue field.1 field.2))

end Guarded

end Calldata
