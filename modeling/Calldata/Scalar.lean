import Calldata.Signed.Literal

/-!
# Scalars

Values that take exactly one word. Integers are big-endian, negative ones in two's complement;
identifiers stand at the end of their word, and byte strings at its start.
-/

namespace Calldata

/-- The number of bytes of a function reference. -/
def functionSize : Nat := 24

namespace Scalar

/-! ## Encoding -/

def integerOf (t : ParamType) : Value → Except Fault Signed
  | .int v => .ok v
  | .uint v => .ok (Signed.of v false)
  | .string s => Signed.ofLiteral s
  | v => .error (.badValue (.wrongForm t v))

/-- Encodes a signed integer of `bits` bits. The width is checked before the value. -/
def encodeInt (bits : Nat) (value : Value) : Except Fault Bytes :=
  let t := ParamType.int bits
  if ¬ ParamType.IsWidth bits then .error (.badWidth t.name)
  else
    match integerOf t value with
    | .error e => .error e
    | .ok v =>
      if v.fits bits then .ok (wordBytes v.toTwosComplement) else .error (.outOfRange t v)

/-- Encodes an unsigned integer of `bits` bits. The sign is checked before the size. -/
def encodeUint (bits : Nat) (value : Value) : Except Fault Bytes :=
  let t := ParamType.uint bits
  if ¬ ParamType.IsWidth bits then .error (.badWidth t.name)
  else
    match integerOf t value with
    | .error e => .error e
    | .ok v =>
      if v.negative then .error .negative
      else if v.magnitude.toNat < 1 <<< bits then .ok (wordBytes v.magnitude)
      else .error (.outOfRange t v)

/-- Whether a text says that something is true: the word in any case, or the digit. -/
def saysTrue (s : String) : Bool := s.toLower = "true" || s = "1"

def truthOf : Value → Except Fault Bool
  | .bool b => .ok b
  | .uint v => .ok (v != 0)
  | .int v => .ok (v.magnitude != 0)
  | .string s => .ok (saysTrue s)
  | v => .error (.badValue (.wrongForm .bool v))

def encodeBool (value : Value) : Except Fault Bytes :=
  (truthOf value).map fun b => wordBytes (if b then 1 else 0)

def identifierOf (k : IdKind) : Value → Except Fault (Identifier k)
  | .identifier l id =>
    if h : l = k then .ok (h ▸ id)
    else .error (.badValue (.wrongForm (.identifier k) (.identifier l id)))
  | .string s =>
    match Identifier.ofText k s with
    | .ok id => .ok id
    | .error (.badHex cause) => .error (.badValue (.badIdentifier cause))
    | .error (.badLength l got) => .error (.badLength (.identifier l got))
  | v => .error (.badValue (.wrongForm (.identifier k) v))

def encodeIdentifier (k : IdKind) (value : Value) : Except Fault Bytes :=
  (identifierOf k value).map fun id => padLeft wordSize id.bytes

def bytesOfText (t : ParamType) (s : String) : Except Fault Bytes :=
  match Hex.ofText s with
  | .ok bs => .ok bs
  | .error cause => .error (.badValue (.badBytes t cause))

/-- The byte string that a value stands for; a hash is its own bytes. -/
def blobOf (t : ParamType) : Value → Except Fault Bytes
  | .bytes bs => .ok bs
  | .identifier .hash id => .ok id.bytes
  | .string s => bytesOfText t s
  | v => .error (.badValue (.wrongForm t v))

/-- Whether a value is a literal, whose length is taken at its word. -/
def isLiteral : Value → Bool
  | .string _ => true
  | _ => false

/-- Encodes a byte string of up to 32 bytes; a literal has to have all of them. -/
def encodeBytes32 (value : Value) : Except Fault Bytes :=
  match blobOf .bytes32 value with
  | .error e => .error e
  | .ok bs =>
    if wordSize < bs.length ∨ (isLiteral value ∧ bs.length ≠ wordSize) then
      .error (.badLength (.blob .bytes32 wordSize bs.length))
    else .ok (padRight wordSize bs)

def encodeFunction (value : Value) : Except Fault Bytes :=
  match blobOf .function value with
  | .error e => .error e
  | .ok bs =>
    if bs.length ≠ functionSize then
      .error (.badLength (.blob .function functionSize bs.length))
    else .ok (padRight wordSize bs)

/-! ## Decoding -/

def identifierOfWord (k : IdKind) (w : Word) : Identifier k where
  bytes := (wordBytes w).drop (wordSize - k.size)
  length_bytes := by
    have := k.size_le_wordSize
    simp; omega

def isTrue (w : Word) : Bool := w != 0

end Scalar

end Calldata
