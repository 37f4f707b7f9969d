import Calldata.Function

/-!
# Interfaces

The functions of a contract in the order of their declaration. Of several functions with one name,
or one selector, the first is meant.
-/

namespace Calldata

structure Interface where
  functions : List Function
  deriving DecidableEq, Repr

namespace Interface

def named? (i : Interface) (name : String) : Option Function :=
  i.functions.find? (·.name = name)

def selected? (i : Interface) (selector : Bytes) (hash : HashFunction := Sha3.digest) : Option Function :=
  i.functions.find? (·.selector hash = selector)

/-- Encodes a call of the function with a name. -/
def encodeCall (i : Interface) (name : String) (args : List Value)
    (hash : HashFunction := Sha3.digest) : Except Fault Bytes :=
  match i.named? name with
  | none => .error (.unknownFunction name)
  | some f => f.encodeCall args hash

/-- Decodes a call, and finds the function that it addresses. -/
def decodeCall (i : Interface) (call : Bytes) (hash : HashFunction := Sha3.digest) :
    Except Fault (Function × List Value) :=
  match splitCall call with
  | .error e => .error e
  | .ok (selector, arguments) =>
    match i.selected? selector hash with
    | none => .error (.noSuchSelector selector)
    | some f => (f.decodeArguments arguments).map (f, ·)

end Interface

/-- Encodes a call of the function with a name, with the arithmetic of 64 bits. -/
def Guarded.encodeNamed (i : Interface) (name : String) (args : List Value)
    (hash : HashFunction := Sha3.digest) : Except Stop Bytes :=
  match i.named? name with
  | none => .error (.fault (.unknownFunction name))
  | some f => encodeCall f args hash

end Calldata
