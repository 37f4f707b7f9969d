import Calldata.Scalar
import Calldata.Tuple

/-!
# The codec

Encoding and decoding values by their types. A dynamic value is encoded as it stands in a tail;
its offset belongs to the tuple around it.
-/

namespace Calldata

/-! ## Encoding -/

def itemsOf (elem : ParamType) : Value → Except Fault (List Value)
  | .array items => .ok items
  | v => .error (.badValue (.wrongForm (.array elem) v))

/-- The byte string of a `bytes` value. -/
def dynamicBytesOf : Value → Except Fault Bytes
  | .bytes bs => .ok bs
  | .string s => Scalar.bytesOfText .bytes s
  | v => .error (.badValue (.wrongForm .bytes v))

/-- The text of a `string` value. -/
def textOf : Value → Except Fault String
  | .string s => .ok s
  | v => .error (.badValue (.wrongForm .string v))

def encodeValue : ParamType → Value → Except Fault Bytes
  | .int bits, v => Scalar.encodeInt bits v
  | .uint bits, v => Scalar.encodeUint bits v
  | .bool, v => Scalar.encodeBool v
  | .identifier k, v => Scalar.encodeIdentifier k v
  | .bytes32, v => Scalar.encodeBytes32 v
  | .function, v => Scalar.encodeFunction v
  | .bytes, v => (dynamicBytesOf v).map Payload.encodeBlob
  | .string, v => (textOf v).map fun s => Payload.encodeBlob (Text.utf8 s)
  | .fixedArray elem n, v =>
    match itemsOf elem v with
    | .error e => .error e
    | .ok items =>
      if items.length ≠ n then .error (.arity n items.length)
      else Tuple.encode (items.map fun item => (elem.slot, encodeValue elem item))
  | .array elem, v =>
    match itemsOf elem v with
    | .error e => .error e
    | .ok items =>
      (Tuple.encode (items.map fun item => (elem.slot, encodeValue elem item))).map
        (bigEndian wordSize items.length ++ ·)

def encode (types : List ParamType) (values : List Value) : Except Fault Bytes :=
  if types.length ≠ values.length then .error (.arity types.length values.length)
  else Tuple.encode ((types.zip values).map fun (t, v) => (t.slot, encodeValue t v))

/-! ## Decoding -/

def decodeWord (data : Bytes) (offset : Nat) : Decode Word := do
  let w ← Payload.word data offset
  spend 1
  pure w

/-- The words that a byte string of `n` bytes takes with its length. -/
def blobWords (n : Nat) : Nat := 1 + wordsFor n

/-- Decodes the value of a type at an offset. -/
def decodeAt (data : Bytes) : ParamType → (offset : Nat) → Decode Value
  | .int _, o => do pure (.int (Signed.ofTwosComplement (← decodeWord data o)))
  | .uint _, o => do pure (.uint (← decodeWord data o))
  | .bool, o => do pure (.bool (Scalar.isTrue (← decodeWord data o)))
  | .identifier k, o => do
    pure (.identifier k (Scalar.identifierOfWord k (← decodeWord data o)))
  | .bytes32, o => do pure (.bytes (wordBytes (← decodeWord data o)))
  | .function, _ => throw .functionNotDecodable
  | .bytes, o => do
    let bs ← Payload.blob data o
    spend (blobWords bs.length)
    pure (.bytes bs)
  | .string, o => do
    let s ← Payload.text data o
    spend (blobWords (Text.utf8 s).length)
    pure (.string s)
  | .fixedArray elem n, o => do
    Payload.checkRoom elem.headSize n data o
    let items ← Tuple.decode data o (List.replicate n (elem.slot, decodeAt data elem))
    pure (.array items)
  | .array elem, o => do
    let n ← Payload.size data o
    spend 1
    Payload.checkRoom elem.headSize n data (o + wordSize)
    let items ←
      Tuple.decode data (o + wordSize) (List.replicate n (elem.slot, decodeAt data elem))
    pure (.array items)

def decodeTuple (types : List ParamType) (data : Bytes) : Decode (List Value) :=
  Tuple.decode data 0 (types.map fun t => (t.slot, decodeAt data t))

/-- Decodes the value of a type at an offset, within the budget of the payload. -/
def decodeValue (t : ParamType) (data : Bytes) (offset : Nat) : Except Fault Value :=
  (decodeAt data t offset).run' (Budget.ofPayload data)

/-- Decodes values from the start of a payload, within its budget. -/
def decode (types : List ParamType) (data : Bytes) : Except Fault (List Value) :=
  (decodeTuple types data).run' (Budget.ofPayload data)

/-- Decodes values from the start of a payload without a budget. -/
def decodeUnlimited (types : List ParamType) (data : Bytes) : Except Fault (List Value) :=
  (decodeTuple types data).run' .unlimited

end Calldata
