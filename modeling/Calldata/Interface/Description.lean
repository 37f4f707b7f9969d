import Calldata.Interface
import Calldata.Json.Draft
import Calldata.ParamType.Parser

/-!
# Interface descriptions

Reading an interface from its JSON description, an array of entries. An entry is an object with
the fields `name`, `type` and `inputs`, or an array of the three; an input likewise has `name`,
`type` and `indexed`, of which an array may leave out the last. Other fields are ignored, whatever
they hold, but none of these may stand twice.
-/

namespace Calldata

structure InputDescription where
  name : String
  type : Option String
  indexed : Bool
  deriving DecidableEq, Repr

structure EntryDescription where
  name : Option String
  type : Option String
  inputs : List InputDescription
  deriving DecidableEq, Repr

open Json (Draft)

/-! ## Fields -/

def Json.Draft.string? : Draft → Option String
  | string s => s
  | _ => none

def Json.Draft.bool? : Draft → Option Bool
  | bool b => some b
  | _ => none

/-- A string, or none for `null`. -/
def Json.Draft.optionalString? : Draft → Option (Option String)
  | null => some none
  | string (some s) => some (some s)
  | _ => none

/-- The fields of an object; their names have to be texts. -/
def namedFields? : List (Option String × Draft) → Option (List (String × Draft))
  | [] => some []
  | (name, d) :: fs => do
    let n ← name
    let rest ← namedFields? fs
    pure ((n, d) :: rest)

/-- The field with a name, none when there is none; there may not be two. -/
def field? (name : String) (fs : List (String × Draft)) : Option (Option Draft) :=
  match fs.filter (·.1 = name) with
  | [] => some none
  | [(_, d)] => some (some d)
  | _ => none

def readField {α : Type} (missing : α) (read : Draft → Option α) (name : String)
    (fs : List (String × Draft)) : Option α := do
  match ← field? name fs with
  | none => pure missing
  | some d => read d

/-! ## Descriptions -/

namespace InputDescription

def ofDraft? : Draft → Option InputDescription
  | .object fs => do
    let fs ← namedFields? fs
    let name ← readField "" Draft.string? "name" fs
    let type ← readField none Draft.optionalString? "type" fs
    let indexed ← readField false Draft.bool? "indexed" fs
    pure ⟨name, type, indexed⟩
  | .array [name, type] => do pure ⟨← name.string?, ← type.optionalString?, false⟩
  | .array [name, type, indexed] => do
    pure ⟨← name.string?, ← type.optionalString?, ← indexed.bool?⟩
  | _ => none

def toParameter (i : InputDescription) : Except Fault Parameter :=
  match i.type with
  | none => .error (.missingField .inputType)
  | some text => (ParamType.parse text).map fun t => ⟨i.name, t, i.indexed⟩

end InputDescription

/-- Reads a list of inputs; `null` stands for none. -/
def inputs? : Draft → Option (List InputDescription)
  | .null => some []
  | .array ds => ds.mapM InputDescription.ofDraft?
  | _ => none

namespace EntryDescription

def ofDraft? : Draft → Option EntryDescription
  | .object fs => do
    let fs ← namedFields? fs
    let name ← readField none Draft.optionalString? "name" fs
    let type ← readField none Draft.optionalString? "type" fs
    let inputs ← readField [] inputs? "inputs" fs
    pure ⟨name, type, inputs⟩
  | .array [name, type, inputs] => do
    pure ⟨← name.optionalString?, ← type.optionalString?, ← inputs? inputs⟩
  | _ => none

/-- The function that is described. Its type is looked at first, then its name, then its inputs
in their order. -/
def toFunction (e : EntryDescription) : Except Fault Function :=
  match e.type with
  | none => .error (.missingField .entryType)
  | some type =>
    if type ≠ "function" then .error (.unsupportedEntry type)
    else
      match e.name with
      | none => .error (.missingField .entryName)
      | some name => (e.inputs.mapM InputDescription.toParameter).map fun ps => ⟨name, ps⟩

end EntryDescription

namespace Interface

def entries? (text : String) : Option (List EntryDescription) :=
  match Draft.read? text with
  | some (.array ds) => ds.mapM EntryDescription.ofDraft?
  | _ => none

/-- The interface of some entries, or the fault of the first one that has any. -/
def ofEntries (es : List EntryDescription) : Except Fault Interface :=
  (es.mapM EntryDescription.toFunction).map fun fs => ⟨fs⟩

/-- Reads an interface from its description. The whole text is read before any entry. -/
def parse (text : String) : Except Fault Interface :=
  match entries? text with
  | none => .error .malformedJson
  | some es => ofEntries es

end Interface

end Calldata
