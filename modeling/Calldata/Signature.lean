import Calldata.Function
import Calldata.ParamType.Parser
import Calldata.Text.Split

/-!
# Signatures

Reading a signature as someone types it, a name with types in brackets. Blanks may stand around
the name and every type, and types may have any accepted spelling; the written form is canonical.
-/

namespace Calldata

inductive SignatureFault where
  | noOpening (text : String)
  | noClosing (text : String)
  | noName
  | badType (cause : Fault)

namespace SignatureFault

def message : SignatureFault → String
  | noOpening text => "missing '(' in " ++ text
  | noClosing text => "missing ')' in " ++ text
  | noName => "empty function name"
  | badType cause => cause.message

end SignatureFault

structure Signature where
  name : String
  types : List ParamType
  deriving DecidableEq, Repr

namespace Signature

def text (s : Signature) : String := Function.signatureOf s.name s.types

/-- Reads the types between the brackets. Blanks alone are no type. -/
def typesOf (inner : List Char) : Except SignatureFault (List ParamType) :=
  if Text.trim inner = [] then .ok []
  else ((Text.split ',' inner).mapM ParamType.parseChars).mapError .badType

/-- Reads a signature. The first bracket opens, and the last character has to close. -/
def parse (signature : String) : Except SignatureFault Signature :=
  let cs := Text.trim signature.toList
  match Text.cut? '(' cs with
  | none => .error (.noOpening (String.ofList cs))
  | some (front, back) =>
    if back.getLast? ≠ some ')' then .error (.noClosing (String.ofList cs))
    else
      let name := Text.trim front
      if name = [] then .error .noName
      else (typesOf back.dropLast).map (⟨String.ofList name, ·⟩)

end Signature

end Calldata
