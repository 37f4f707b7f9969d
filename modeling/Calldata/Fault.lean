import Calldata.Json
import Calldata.Value

/-!
# Faults

Why types, values, payloads and interface descriptions are refused, and the wording of each.
-/

namespace Calldata

/-- Why a literal spells no integer of one word. -/
inductive LiteralFault where
  | emptyHex
  | notNumber
  | badHex (cause : HexFault)
  | tooManyDigits
  | tooLarge

inductive LengthFault where
  /-- A literal holds too few or too many bytes for an identifier. -/
  | identifier (kind : IdKind) (got : Nat)
  /-- A byte string has not the size of its type. -/
  | blob (type : ParamType) (expected got : Nat)
  /-- A word in a payload is larger than any length or offset. -/
  | word (value offset : Nat)
  /-- The slots of a tuple take more room than can be named. -/
  | head

inductive ValueFault where
  | wrongForm (type : ParamType) (value : Value)
  | badBytes (type : ParamType) (cause : HexFault)
  | badIdentifier (cause : HexFault)
  | badInteger (literal : String) (cause : LiteralFault)
  | unexpectedJson (type : ParamType) (json : Json)
  | notInteger (type : ParamType) (json : Json)
  | argumentsNotArray

inductive Field where
  | entryType
  | entryName
  | inputType
  deriving DecidableEq, Repr

inductive Fault where
  | unknownType (name : String)
  | badWidth (name : String)
  | malformedArray (name : String)
  | arity (expected got : Nat)
  | negative
  | outOfRange (type : ParamType) (value : Signed)
  | shortData (needed available : Nat)
  | badLength (cause : LengthFault)
  | tooMuchOutput (limit : Nat)
  | badValue (cause : ValueFault)
  | badUtf8 (cause : Text.Utf8Fault)
  | functionNotDecodable
  | unknownFunction (name : String)
  | noSuchSelector (selector : Bytes)
  | otherSelector (expected got : Bytes)
  | malformedJson
  | missingField (field : Field)
  | unsupportedEntry (kind : String)

/-! ## Wording -/

namespace LiteralFault

/-- The wording about a literal; it is shown as it was given. -/
def message (literal : String) : LiteralFault → String
  | emptyHex => "empty hex literal " ++ Text.quoted literal
  | notNumber => "not a number: " ++ Text.quoted literal
  | badHex cause => Text.quoted literal ++ ": " ++ cause.message
  | tooManyDigits => Text.quoted literal ++ ": Invalid string length"
  | tooLarge => Text.quoted literal ++ ": InvalidLength"

end LiteralFault

namespace LengthFault

def message : LengthFault → String
  | identifier k got => (IdFault.badLength k got).message
  | blob t expected got =>
    t.name ++ " expects " ++ decimal expected ++ " bytes, got " ++ decimal got
  | word value offset =>
    "length word " ++ decimal value ++ " at offset " ++ decimal offset
      ++ " exceeds addressable range"
  | head => "tuple head exceeds addressable range"

end LengthFault

namespace ValueFault

def wanted : ParamType → String
  | .int _ | .uint _ => "integer"
  | .bool => "boolean"
  | .identifier k => k.label
  | .bytes32 | .bytes | .function => "bytes"
  | .string => "string"
  | .fixedArray _ _ | .array _ => "array elements"

/-- What a value was offered for, and why it does not serve. -/
def parts : ValueFault → String × String
  | wrongForm t v => (t.name, "expected " ++ wanted t ++ ", got " ++ v.form)
  | badBytes t cause => (t.name, cause.message)
  | badIdentifier cause => ("hex", cause.message)
  | badInteger literal cause => ("integer", cause.message literal)
  | unexpectedJson t j => (t.name, "unexpected JSON value " ++ j.compact)
  | notInteger t j => (t.name, "not an integer: " ++ j.compact)
  | argumentsNotArray => ("arguments", "expected a JSON array")

def message (v : ValueFault) : String := "invalid value for " ++ v.parts.1 ++ ": " ++ v.parts.2

end ValueFault

namespace Field

def path : Field → String
  | entryType => "type"
  | entryName => "name"
  | inputType => "inputs.type"

end Field

/-- A byte string that is no text, by where it stops being one. -/
def Text.Utf8Fault.message (f : Text.Utf8Fault) : String :=
  match f.badBytes with
  | some n => "invalid utf-8 sequence of " ++ decimal n ++ " bytes from index " ++ decimal f.validTo
  | none => "incomplete utf-8 byte sequence from index " ++ decimal f.validTo

namespace Fault

/-- The wording of a fault. Where a text stops being JSON is left open. -/
def message : Fault → String
  | unknownType name => "unknown type: " ++ name
  | badWidth name => "invalid integer size in type: " ++ name
  | malformedArray name => "malformed array type: " ++ name
  | arity expected got =>
    "arity mismatch: expected " ++ decimal expected ++ " values, got " ++ decimal got
  | negative => "negative value for unsigned integer type"
  | outOfRange t v => "value " ++ v.text ++ " out of range for " ++ t.name
  | shortData needed available =>
    "insufficient bytes: need " ++ decimal needed ++ ", have " ++ decimal available
  | badLength cause => "invalid encoding length: " ++ cause.message
  | tooMuchOutput limit =>
    "decoded output exceeds " ++ decimal limit ++ " words for this input"
  | badValue cause => cause.message
  | badUtf8 cause => "invalid UTF-8: " ++ cause.message
  | functionNotDecodable => "unsupported operation: decoding function type"
  | unknownFunction name => "unknown function: " ++ name
  | noSuchSelector s => "no function matches selector " ++ Hex.marked s
  | otherSelector expected got =>
    "selector mismatch: expected " ++ Hex.marked expected ++ ", got " ++ Hex.marked got
  | malformedJson => "malformed ABI JSON: *"
  | missingField field => "missing field `" ++ field.path ++ "` in ABI entry"
  | unsupportedEntry kind => "unsupported ABI entry type: " ++ kind

end Fault

end Calldata
