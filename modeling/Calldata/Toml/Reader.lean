import Calldata.Toml
import Calldata.Toml.Quoted
import Calldata.Toml.Scalar

/-!
# Reading settings files

A file is read into lines, headings and entries, and the lines are put together to a table. Values
may be nested to a certain depth, and a key has a limited number of parts. A text that breaks a rule
anywhere is no settings file.
-/

namespace Calldata.Toml

inductive Line where
  /-- Opens a table. -/
  | table (path : List String)
  /-- Opens a further table in a list of them. -/
  | item (path : List String)
  | entry (path : List String) (value : Toml)

/-! ## Gaps -/

def gap (cs : List Char) : List Char := cs.dropWhile fun c => c = ' ' || c = '\t'

/-- Drops blanks, line breaks and comments. `comment` says that one has begun. -/
def gaps : (comment : Bool) → List Char → List Char
  | _, [] => []
  | true, c :: rest =>
    if c = '\n' then gaps false rest else if isPrintable c then gaps true rest else c :: rest
  | false, c :: rest =>
    if isGap c then gaps false rest else if c = '#' then gaps true rest else c :: rest

def comment : List Char → List Char
  | '#' :: rest => rest.dropWhile isPrintable
  | cs => cs

def lineEnd? (cs : List Char) : Option (List Char) :=
  match comment (gap cs) with
  | [] => some []
  | '\n' :: rest => some rest
  | _ => none

/-! ## Keys -/

def isKeyChar (c : Char) : Bool := c.isAlphanum || c = '_' || c = '-'

def key : List Char → Option (String × List Char)
  | '"' :: rest => (basic rest).map fun (cs, rest) => (String.ofList cs, rest)
  | '\'' :: rest => (literal rest).map fun (cs, rest) => (String.ofList cs, rest)
  | cs =>
    match cs.span isKeyChar with
    | ([], _) => none
    | (k, rest) => some (String.ofList k, rest)

/-- The most keys in a path. -/
def maxKeys : Nat := 79

/-- Reads at most `room` keys with points between them. -/
def path : (room : Nat) → List Char → Option (List String × List Char)
  | 0, _ => none
  | room + 1, cs => do
    let (k, rest) ← key (gap cs)
    match gap rest with
    | '.' :: rest => (path room rest).map fun (ks, rest) => (k :: ks, rest)
    | rest => some ([k], rest)

/-! ## Values -/

/-- A character of a word: a truth value, a number or a moment. -/
def isWordChar (c : Char) : Bool :=
  c.isAlphanum || c = '+' || c = '-' || c = '_' || c = '.' || c = ':'

/-- The word at the start of a text. A day and a time with a blank between are one word. -/
def word (cs : List Char) : List Char × List Char :=
  match cs.span isWordChar with
  | (w, ' ' :: rest) =>
    let (time, after) := rest.span isWordChar
    if isDate w && isMoment (w ++ ' ' :: time) then (w ++ ' ' :: time, after)
    else (w, ' ' :: rest)
  | (w, rest) => (w, rest)

def ofWord? (w : List Char) : Option Toml :=
  if w = "true".toList then some (bool true)
  else if w = "false".toList then some (bool false)
  else if isMoment w then some (moment (String.ofList w))
  else if isNumber w then some (number (String.ofList w))
  else none

/-- The deepest nesting of arrays and of tables that are written out. -/
def maxDepth : Nat := 79

mutual

/-- Reads a value. The fuel bounds the number of its parts, and `room` how deep they are nested: no
bracket opens when there is no room left. -/
def value : (fuel room : Nat) → List Char → Option (Toml × List Char)
  | 0, _, _ => none
  | fuel + 1, room, cs =>
    match cs, room with
    | '[' :: rest, room + 1 =>
      (items fuel room (gaps false rest)).map fun (vs, rest) => (array vs, rest)
    | '{' :: rest, room + 1 =>
      match gap rest with
      | '}' :: rest => some (table .inlined [], rest)
      | rest => (pairs fuel room [] rest).map fun (t, rest) => (table .inlined t, rest)
    | '"' :: _, _ | '\'' :: _, _ =>
      (quotedText cs).map fun (s, rest) => (string (String.ofList s), rest)
    | cs, _ =>
      let (w, rest) := word cs
      (ofWord? w).map (·, rest)

/-- Reads the items of an array up to its closing bracket. A comma may follow the last one. -/
def items : (fuel room : Nat) → List Char → Option (List Toml × List Char)
  | 0, _, _ => none
  | fuel + 1, room, cs =>
    match cs with
    | ']' :: rest => some ([], rest)
    | cs => do
      let (v, rest) ← value fuel room cs
      match gaps false rest with
      | ',' :: rest => (items fuel room (gaps false rest)).map fun (vs, rest) => (v :: vs, rest)
      | ']' :: rest => some ([v], rest)
      | _ => none

/-- Reads the entries of a table that is written out, up to its closing brace. -/
def pairs : (fuel room : Nat) → Entries → List Char → Option (Entries × List Char)
  | 0, _, _, _ => none
  | fuel + 1, room, entries, cs => do
    let (ks, rest) ← path maxKeys cs
    match rest with
    | '=' :: rest => do
      let (v, rest) ← value fuel room (gap rest)
      let entries ← add v ks entries
      match gap rest with
      | ',' :: rest => pairs fuel room entries rest
      | '}' :: rest => some (entries, rest)
      | _ => none
    | _ => none

end

/-! ## Lines -/

def line (fuel : Nat) : List Char → Option (Line × List Char)
  | '[' :: '[' :: rest => do
    let (ks, rest) ← path maxKeys rest
    match rest with
    | ']' :: ']' :: rest => some (.item ks, rest)
    | _ => none
  | '[' :: rest => do
    let (ks, rest) ← path maxKeys rest
    match rest with
    | ']' :: rest => some (.table ks, rest)
    | _ => none
  | cs => do
    let (ks, rest) ← path maxKeys cs
    match rest with
    | '=' :: rest => do
      let (v, rest) ← value fuel maxDepth (gap rest)
      some (.entry ks v, rest)
    | _ => none

/-- Reads lines up to the end of the text. -/
def lines : (fuel : Nat) → List Char → Option (List Line)
  | 0, _ => none
  | fuel + 1, cs =>
    match gap cs with
    | [] => some []
    | '\n' :: rest => lines fuel rest
    | '#' :: rest => do
      let rest ← lineEnd? ('#' :: rest)
      lines fuel rest
    | cs => do
      let (l, rest) ← line fuel cs
      let rest ← lineEnd? rest
      (lines fuel rest).map (l :: ·)

/-- Puts lines together. Entries go to the table at `here`. -/
def assemble (here : List String) (entries : Entries) : List Line → Option Entries
  | [] => some entries
  | .entry ks v :: ls => do assemble here (← within (add v ks) here entries) ls
  | .table ks :: ls => do
    let last ← ks.getLast?
    assemble ks (← within (openTable last) ks.dropLast entries) ls
  | .item ks :: ls => do
    let last ← ks.getLast?
    assemble ks (← within (openItem last) ks.dropLast entries) ls

/-- Turns every carriage return that precedes a line feed into nothing. -/
def plainLines : List Char → List Char
  | [] => []
  | '\r' :: '\n' :: rest => '\n' :: plainLines rest
  | c :: rest => c :: plainLines rest

def unmarked : List Char → List Char
  | '\uFEFF' :: rest => rest
  | cs => cs

def read? (text : String) : Option Entries :=
  let cs := plainLines (unmarked text.toList)
  (lines (2 * cs.length + 2) cs).bind (assemble [] [])

end Calldata.Toml
