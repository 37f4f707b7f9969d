import Calldata.Identifier

/-!
# Parameter types

The types that a function may ask for, their canonical names, and the room that their values take
in a payload. Sizes stop at the largest size that can be named.
-/

namespace Calldata

inductive ParamType where
  | int (bits : Nat)
  | uint (bits : Nat)
  | bool
  | identifier (kind : IdKind)
  | bytes32
  | bytes
  | string
  | function
  | fixedArray (elem : ParamType) (length : Nat)
  | array (elem : ParamType)
  deriving DecidableEq, Repr, Inhabited

namespace ParamType

/-! ## Names -/

/-- The word for a kind of identifier in type names. -/
def idWord : IdKind → String
  | .address => "address"
  | .hash => "hash"
  | .token => "tokenStandard"

def nameChars : ParamType → List Char
  | int bits => "int".toList ++ decimalDigits bits
  | uint bits => "uint".toList ++ decimalDigits bits
  | bool => "bool".toList
  | identifier k => (idWord k).toList
  | bytes32 => "bytes32".toList
  | bytes => "bytes".toList
  | string => "string".toList
  | function => "function".toList
  | fixedArray elem n => elem.nameChars ++ '[' :: decimalDigits n ++ [']']
  | array elem => elem.nameChars ++ ['[', ']']

def name (t : ParamType) : String := String.ofList t.nameChars

/-! ## Which types there are -/

/-- A width that integers may have: whole bytes, up to a word. -/
def IsWidth (bits : Nat) : Prop := 8 ≤ bits ∧ bits ≤ 256 ∧ bits % 8 = 0

instance (bits : Nat) : Decidable (IsWidth bits) := by unfold IsWidth; infer_instance

def IsArrayLength (n : Nat) : Prop := 1 ≤ n ∧ n ≤ maxSize

instance (n : Nat) : Decidable (IsArrayLength n) := by unfold IsArrayLength; infer_instance

/-- Every width and length in the type is one that a type name may ask for. -/
def WellFormed : ParamType → Prop
  | int bits | uint bits => IsWidth bits
  | fixedArray elem n => elem.WellFormed ∧ IsArrayLength n
  | array elem => elem.WellFormed
  | _ => True

/-- Function references, which can be encoded but not decoded, do not occur in the type. -/
def FunctionFree : ParamType → Prop
  | function => False
  | fixedArray elem _ | array elem => elem.FunctionFree
  | _ => True

/-! ## Sizes -/

def isDynamic : ParamType → Bool
  | bytes | string | array _ => true
  | fixedArray elem _ => elem.isDynamic
  | _ => false

/-- The encoded size of a static type, and zero for a dynamic one. -/
def staticSize : ParamType → Nat
  | bytes | string | array _ => 0
  | fixedArray elem n => Nat.min (elem.staticSize * n) maxSize
  | _ => wordSize

/-- The room that a value takes in the head of a tuple. -/
def headSize (t : ParamType) : Nat := if t.isDynamic then wordSize else t.staticSize

end ParamType

end Calldata
