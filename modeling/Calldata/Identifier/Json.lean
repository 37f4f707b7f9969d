import Calldata.Identifier
import Calldata.Json.Draft

/-!
# Identifiers and JSON

An identifier is a string in JSON, and it is read from any string that is a text of it.
-/

namespace Calldata.Identifier

variable {k : IdKind}

/-- Why a JSON text is no identifier. -/
inductive JsonFault where
  | malformed
  | notString
  | badText (cause : IdFault)
  deriving DecidableEq, Repr

def toJson (a : Identifier k) : Json := .string a.text

def ofJson (k : IdKind) : Json → Except JsonFault (Identifier k)
  | .string s => (ofText k s).mapError .badText
  | _ => .error .notString

/-- Reads an identifier from a JSON text. -/
def ofJsonText (k : IdKind) (s : String) : Except JsonFault (Identifier k) :=
  match Json.read? s with
  | some j => ofJson k j
  | none => .error .malformed

end Calldata.Identifier
