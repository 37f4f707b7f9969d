import Calldata.Hex

/-!
# Identifiers

Byte strings of a fixed size that name something: an account, a hash, a token standard. Their
text form is marked hexadecimal, and they are ordered by their bytes.
-/

namespace Calldata

inductive IdKind where
  | address
  | hash
  | token
  deriving DecidableEq, Repr, Inhabited

namespace IdKind

def size : IdKind → Nat
  | address => 20
  | hash => 32
  | token => 10

def label : IdKind → String
  | address => "address"
  | hash => "hash"
  | token => "token id"

def title : IdKind → String
  | address => "Address"
  | hash => "H256"
  | token => "TokenId"

theorem size_le_wordSize (k : IdKind) : k.size ≤ wordSize := by cases k <;> decide

end IdKind

structure Identifier (k : IdKind) where
  bytes : Bytes
  length_bytes : bytes.length = k.size
  deriving DecidableEq

/-- Why a text or a byte string is no identifier. -/
inductive IdFault where
  | badHex (cause : HexFault)
  | badLength (kind : IdKind) (got : Nat)
  deriving DecidableEq, Repr

namespace IdFault

def message : IdFault → String
  | badHex cause => "invalid hex string: " ++ cause.message
  | badLength k got =>
    "invalid " ++ k.label ++ " length: expected " ++ decimal k.size ++ " bytes, got " ++ decimal got

end IdFault

namespace Identifier

variable {k : IdKind}

/-- The identifier of a byte string of the right size. -/
def ofBytes (k : IdKind) (bs : Bytes) : Except IdFault (Identifier k) :=
  if h : bs.length = k.size then .ok ⟨bs, h⟩ else .error (.badLength k bs.length)

/-- Reads an identifier from hexadecimal text, marked or not. -/
def ofText (k : IdKind) (s : String) : Except IdFault (Identifier k) :=
  match Hex.ofText s with
  | .ok bs => ofBytes k bs
  | .error cause => .error (.badHex cause)

def zero (k : IdKind) : Identifier k := ⟨zeros k.size, by simp⟩

instance : Inhabited (Identifier k) := ⟨zero k⟩

def isZero (a : Identifier k) : Bool := a = zero k

def text (a : Identifier k) : String := Hex.marked a.bytes

def titled (a : Identifier k) : String := k.title ++ "(" ++ a.text ++ ")"

end Identifier

/-- Compares byte strings by the first byte that differs. -/
def compareBytes : Bytes → Bytes → Ordering
  | [], [] => .eq
  | [], _ :: _ => .lt
  | _ :: _, [] => .gt
  | a :: as, b :: bs => (compare a.toNat b.toNat).then (compareBytes as bs)

instance {k : IdKind} : Ord (Identifier k) := ⟨fun a b => compareBytes a.bytes b.bytes⟩

end Calldata
