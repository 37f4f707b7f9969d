import Calldata.Json.Numeral

/-!
# JSON drafts

A draft is a JSON text read for its structure alone: fields stay in their order, repeated ones
too, no number is too large, nesting has no bound, and a string whose escapes leave half a
character is kept as none. A value is made from a draft that has no such fault.
-/

namespace Calldata.Json

inductive Draft where
  | null
  | bool (b : Bool)
  | number (n : Numeral)
  | string (s : Option String)
  | array (items : List Draft)
  | object (fields : List (Option String × Draft))
  deriving Inhabited

namespace Draft

/-! ## Strings -/

/-- A part of a written string: a character, or the 16-bit unit of an escape. -/
inductive Piece where
  | char (c : Char)
  | unit (u : Nat)

def unit? (a b c d : Char) : Option Nat := do
  let h ← [a, b, c, d].mapM hexDigitValue?
  pure (h.foldl (fun n v => 16 * n + v) 0)

/-- The character that an escape of one letter stands for. -/
def letter? : Char → Option Char
  | '"' => some '"'
  | '\\' => some '\\'
  | '/' => some '/'
  | 'b' => some '\x08'
  | 'f' => some '\x0c'
  | 'n' => some '\n'
  | 'r' => some '\r'
  | 't' => some '\t'
  | _ => none

/-- Reads the rest of a string behind its opening quote. -/
def pieces : List Char → Option (List Piece × List Char)
  | [] => none
  | '"' :: rest => some ([], rest)
  | '\\' :: 'u' :: a :: b :: c :: d :: rest => do
    let u ← unit? a b c d
    let (ps, rest) ← pieces rest
    pure (.unit u :: ps, rest)
  | '\\' :: e :: rest => do
    let c ← letter? e
    let (ps, rest) ← pieces rest
    pure (.char c :: ps, rest)
  | c :: rest => do
    if c.toNat < 32 then none
    let (ps, rest) ← pieces rest
    pure (.char c :: ps, rest)

/-- The characters that pieces spell; none when half of a pair stands alone. -/
def chars? : List Piece → Option (List Char)
  | [] => some []
  | .char c :: ps => (chars? ps).map (c :: ·)
  | .unit high :: .unit low :: ps =>
    if 0xD800 ≤ high ∧ high < 0xDC00 then
      if 0xDC00 ≤ low ∧ low < 0xE000 then
        (chars? ps).map (Char.ofNat (0x10000 + 1024 * (high - 0xD800) + (low - 0xDC00)) :: ·)
      else none
    else if 0xDC00 ≤ high ∧ high < 0xE000 then none
    else (chars? (.unit low :: ps)).map (Char.ofNat high :: ·)
  | .unit u :: ps =>
    if 0xD800 ≤ u ∧ u < 0xE000 then none else (chars? ps).map (Char.ofNat u :: ·)

def text? (ps : List Piece) : Option String := (chars? ps).map String.ofList

/-! ## Numbers -/

def digits (cs : List Char) : List Char × List Char := cs.span isDigit

/-- Digits behind a point; none needed without one. -/
def fraction : List Char → Option (List Char × List Char)
  | '.' :: rest =>
    let (ds, rest) := digits rest
    if ds.isEmpty then none else some (ds, rest)
  | rest => some ([], rest)

def exponent : List Char → Option (Option Int × List Char)
  | e :: rest =>
    if e = 'e' ∨ e = 'E' then
      let (negative, rest) := match rest with
        | '-' :: rest => (true, rest)
        | '+' :: rest => (false, rest)
        | rest => (false, rest)
      let (ds, rest) := digits rest
      let n : Int := digitsValue ds
      if ds.isEmpty then none else some (some (if negative then -n else n), rest)
    else some (none, e :: rest)
  | [] => some (none, [])

/-- Reads a number. It has no superfluous zero in front. -/
def numeral (cs : List Char) : Option (Numeral × List Char) := do
  let (negative, rest) := match cs with
    | '-' :: rest => (true, rest)
    | rest => (false, rest)
  let (whole, rest) := digits rest
  if whole.isEmpty ∨ (whole.head? = some '0' ∧ 1 < whole.length) then none
  let (fraction, rest) ← fraction rest
  let (exponent, rest) ← exponent rest
  pure (⟨negative, whole, fraction, exponent⟩, rest)

/-! ## Structure -/

/-- Drops the blanks that JSON allows between its parts. -/
def skip (cs : List Char) : List Char :=
  cs.dropWhile fun c => c = ' ' || c = '\t' || c = '\r' || c = '\n'

mutual

/-- Reads one value. The fuel bounds the number of parts. -/
def value : Nat → List Char → Option (Draft × List Char)
  | 0, _ => none
  | fuel + 1, cs =>
    match skip cs with
    | 'n' :: 'u' :: 'l' :: 'l' :: rest => some (null, rest)
    | 't' :: 'r' :: 'u' :: 'e' :: rest => some (bool true, rest)
    | 'f' :: 'a' :: 'l' :: 's' :: 'e' :: rest => some (bool false, rest)
    | '"' :: rest => (pieces rest).map fun (ps, rest) => (string (text? ps), rest)
    | '[' :: rest =>
      match skip rest with
      | ']' :: rest => some (array [], rest)
      | _ => (items fuel rest).map fun (ds, rest) => (array ds, rest)
    | '{' :: rest =>
      match skip rest with
      | '}' :: rest => some (object [], rest)
      | _ => (fields fuel rest).map fun (fs, rest) => (object fs, rest)
    | cs => (numeral cs).map fun (n, rest) => (number n, rest)

/-- Reads the items of an array up to its closing bracket. -/
def items : Nat → List Char → Option (List Draft × List Char)
  | 0, _ => none
  | fuel + 1, cs => do
    let (d, rest) ← value fuel cs
    match skip rest with
    | ',' :: rest => (items fuel rest).map fun (ds, rest) => (d :: ds, rest)
    | ']' :: rest => some ([d], rest)
    | _ => none

/-- Reads the fields of an object up to its closing brace. -/
def fields : Nat → List Char → Option (List (Option String × Draft) × List Char)
  | 0, _ => none
  | fuel + 1, cs =>
    match skip cs with
    | '"' :: rest => do
      let (ps, rest) ← pieces rest
      match skip rest with
      | ':' :: rest => do
        let (d, rest) ← value fuel rest
        match skip rest with
        | ',' :: rest => (fields fuel rest).map fun (fs, rest) => ((text? ps, d) :: fs, rest)
        | '}' :: rest => some ([(text? ps, d)], rest)
        | _ => none
      | _ => none
    | _ => none

end

def read? (s : String) : Option Draft :=
  let cs := s.toList
  match value (2 * cs.length + 2) cs with
  | some (d, rest) => if (skip rest).isEmpty then some d else none
  | none => none

/-! ## Values -/

mutual

/-- The value of a draft that nests at most `room` levels deep and has no other fault. -/
def toJson? (room : Nat) : Draft → Option Json
  | null => some .null
  | bool b => some (.bool b)
  | number n => n.value?
  | string s => s.map .string
  | array ds =>
    match room with
    | 0 => none
    | room + 1 => (itemsToJson? room ds).map .array
  | object fs =>
    match room with
    | 0 => none
    | room + 1 => (fieldsToJson? room fs).map ofFields

def itemsToJson? (room : Nat) : List Draft → Option (List Json)
  | [] => some []
  | d :: ds => do
    let v ← toJson? room d
    let vs ← itemsToJson? room ds
    pure (v :: vs)

def fieldsToJson? (room : Nat) : List (Option String × Draft) → Option (List (String × Json))
  | [] => some []
  | (name, d) :: fs => do
    let n ← name
    let v ← toJson? room d
    let vs ← fieldsToJson? room fs
    pure ((n, v) :: vs)

end

end Draft

/-- The deepest nesting of a value. -/
def maxDepth : Nat := 127

def read? (s : String) : Option Json := (Draft.read? s).bind (Draft.toJson? maxDepth)

end Calldata.Json
