import Calldata.Scalar

/-!
# Values and JSON

Making values from JSON arguments, and showing values as JSON. Strings stay literals for the codec
to read, except that byte strings are read at once; a shown value reads back as one of its type.
-/

namespace Calldata.Value

/-! ## From JSON -/

def ofScalar (t : ParamType) (j : Json) : Except Fault Value :=
  match j with
  | .string s => .ok (string s)
  | .bool b => .ok (bool b)
  | .integer i => .ok (if i < 0 then int (Signed.ofInt i) else uint (BitVec.ofNat 256 i.natAbs))
  | .real _ _ => .error (.badValue (.notInteger t j))
  | _ => .error (.badValue (.unexpectedJson t j))

/-- The value that a JSON value stands for under a type. -/
def ofJson : ParamType → Json → Except Fault Value
  | .fixedArray elem _, .array items => (items.mapM (ofJson elem)).map array
  | .array elem, .array items => (items.mapM (ofJson elem)).map array
  | .fixedArray elem n, j => .error (.badValue (.unexpectedJson (.fixedArray elem n) j))
  | .array elem, j => .error (.badValue (.unexpectedJson (.array elem) j))
  | .bytes, .string s => (Scalar.bytesOfText .bytes s).map bytes
  | .function, .string s => (Scalar.bytesOfText .function s).map bytes
  | t, j => ofScalar t j

/-- One value for each type from a JSON array of arguments. -/
def ofJsonArguments (types : List ParamType) (j : Json) : Except Fault (List Value) :=
  match j with
  | .array items =>
    if types.length ≠ items.length then .error (.arity types.length items.length)
    else (types.zip items).mapM fun (t, item) => ofJson t item
  | _ => .error (.badValue .argumentsNotArray)

/-! ## To JSON -/

mutual

/-- The value as JSON. Integers are numerals in strings, since a JSON number may not hold them. -/
def toJson : Value → Json
  | int v => .string v.text
  | uint v => .string (decimal v.toNat)
  | bool b => .bool b
  | identifier _ id => .string id.text
  | bytes bs => .string (Hex.marked bs)
  | string s => .string s
  | array items => .array (listToJson items)

def listToJson : List Value → List Json
  | [] => []
  | item :: items => item.toJson :: listToJson items

end

end Calldata.Value
