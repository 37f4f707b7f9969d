import Calldata.Double.Shortest

/-!
# JSON values

A JSON value and its two written forms. The fields of an object are in the order of their names,
and of two fields with one name the later one stands.
-/

namespace Calldata

/-- A JSON value. A number is an integer when it was written as one and fits in 64 bits. -/
inductive Json where
  | null
  | bool (b : Bool)
  | integer (i : Int)
  | real (negative : Bool) (magnitude : Double)
  | string (s : String)
  | array (items : List Json)
  | object (fields : List (String × Json))
  deriving Inhabited

namespace Json

/-! ## Objects -/

/-- Puts a field in its place, over an earlier one of the same name. -/
def insertField (name : String) (value : Json) : List (String × Json) → List (String × Json)
  | [] => [(name, value)]
  | (n, v) :: rest =>
    if name < n then (name, value) :: (n, v) :: rest
    else if name = n then (name, value) :: rest
    else (n, v) :: insertField name value rest

/-- The object of these fields, the last of each name. -/
def ofFields (fields : List (String × Json)) : Json :=
  object (fields.foldl (fun o f => insertField f.1 f.2 o) [])

/-! ## Text -/

def escape (c : Char) : List Char :=
  match c with
  | '"' => ['\\', '"']
  | '\\' => ['\\', '\\']
  | '\n' => ['\\', 'n']
  | '\r' => ['\\', 'r']
  | '\t' => ['\\', 't']
  | c =>
    if c.toNat = 8 then ['\\', 'b']
    else if c.toNat = 12 then ['\\', 'f']
    else if c.toNat < 32 then
      ['\\', 'u', '0', '0', hexDigitChar (c.toNat / 16), hexDigitChar (c.toNat % 16)]
    else [c]

def quoted (s : String) : String := String.ofList ('"' :: s.toList.flatMap escape ++ ['"'])

/-- The text of a value that is neither an array nor an object. -/
def scalarText : Json → String
  | null => "null"
  | bool b => if b then "true" else "false"
  | integer i => if i < 0 then "-" ++ decimal i.natAbs else decimal i.natAbs
  | real negative x => if negative then "-" ++ x.text else x.text
  | string s => quoted s
  | _ => ""

mutual

def compact : Json → String
  | array items => "[" ++ ",".intercalate (compactItems items) ++ "]"
  | object fields => "\x7b" ++ ",".intercalate (compactFields fields) ++ "\x7d"
  | scalar => scalar.scalarText

def compactItems : List Json → List String
  | [] => []
  | item :: items => item.compact :: compactItems items

def compactFields : List (String × Json) → List String
  | [] => []
  | (name, value) :: fields => (quoted name ++ ":" ++ value.compact) :: compactFields fields

end

/-- A line break followed by two spaces for each level. -/
def newline (level : Nat) : String := String.ofList ('\n' :: List.replicate (2 * level) ' ')

/-- Entries on lines of their own, one level deeper than the brackets around them. -/
def block (opening closing : String) (level : Nat) (entries : List String) : String :=
  if entries.isEmpty then opening ++ closing
  else
    opening ++ newline (level + 1) ++ ("," ++ newline (level + 1)).intercalate entries
      ++ newline level ++ closing

mutual

/-- The value with each entry on a line of its own. -/
def pretty (level : Nat) : Json → String
  | array items => block "[" "]" level (prettyItems (level + 1) items)
  | object fields => block "\x7b" "\x7d" level (prettyFields (level + 1) fields)
  | scalar => scalar.scalarText

def prettyItems (level : Nat) : List Json → List String
  | [] => []
  | item :: items => item.pretty level :: prettyItems level items

def prettyFields (level : Nat) : List (String × Json) → List String
  | [] => []
  | (name, value) :: fields =>
    (quoted name ++ ": " ++ value.pretty level) :: prettyFields level fields

end

end Json

end Calldata
