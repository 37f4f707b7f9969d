import Calldata.Codec.Machine
import Calldata.Sha3

/-!
# Functions

A function has a name and typed parameters. Its signature determines its selector, the first four
bytes of a call; the arguments follow as one tuple. A selector comes from a hash of the signature,
which is SHA3-256 unless another one is given.
-/

namespace Calldata

/-- The number of bytes of a selector. -/
def selectorSize : Nat := 4

abbrev HashFunction := Bytes → Identifier .hash

def selectorOf (signature : String) (hash : HashFunction := Sha3.digest) : Bytes :=
  (hash (Text.utf8 signature)).bytes.take selectorSize

/-- A parameter. Whether it is indexed is kept, but plays no part in encoding. -/
structure Parameter where
  name : String
  type : ParamType
  indexed : Bool
  deriving DecidableEq, Repr

structure Function where
  name : String
  inputs : List Parameter
  deriving DecidableEq, Repr

/-- Splits a call into its selector and its arguments. -/
def splitCall (call : Bytes) : Except Fault (Bytes × Bytes) :=
  if call.length < selectorSize then .error (.shortData selectorSize call.length)
  else .ok (call.take selectorSize, call.drop selectorSize)

namespace Function

def types (f : Function) : List ParamType := f.inputs.map (·.type)

def signatureOf (name : String) (types : List ParamType) : String :=
  name ++ "(" ++ ",".intercalate (types.map (·.name)) ++ ")"

/-- The name with the canonical names of the parameter types. -/
def signature (f : Function) : String := signatureOf f.name f.types

def selector (f : Function) (hash : HashFunction := Sha3.digest) : Bytes := selectorOf f.signature hash

/-! ## Calls -/

def encodeArguments (f : Function) (args : List Value) : Except Fault Bytes :=
  encode f.types args

def decodeArguments (f : Function) (data : Bytes) : Except Fault (List Value) :=
  decode f.types data

/-- Encodes a call: the selector, then the arguments. -/
def encodeCall (f : Function) (args : List Value) (hash : HashFunction := Sha3.digest) :
    Except Fault Bytes :=
  (f.encodeArguments args).map (f.selector hash ++ ·)

/-- Decodes the arguments of a call of this function. -/
def decodeCall (f : Function) (call : Bytes) (hash : HashFunction := Sha3.digest) :
    Except Fault (List Value) :=
  match splitCall call with
  | .error e => .error e
  | .ok (selector, arguments) =>
    if selector ≠ f.selector hash then .error (.otherSelector (f.selector hash) selector)
    else f.decodeArguments arguments

end Function

/-! ## Calls on a machine -/

namespace Guarded

def encodeArguments (f : Function) (args : List Value) : Except Stop Bytes := encode f.types args

/-- Encodes a call with the arithmetic of 64 bits. -/
def encodeCall (f : Function) (args : List Value) (hash : HashFunction := Sha3.digest) : Except Stop Bytes := do
  let arguments ← encodeArguments f args
  pure (f.selector hash ++ arguments)

end Guarded

end Calldata
