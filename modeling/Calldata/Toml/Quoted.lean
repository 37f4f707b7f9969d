import Calldata.Numeral

/-!
# Quoted texts

A text stands between double quotes, where a backslash starts an escape, or between single quotes,
where nothing does. Behind three quotes of either kind it is a block, which may run over lines. A
text is written in the plainest way that can hold it. Lines end in a single line feed.
-/

namespace Calldata.Toml

inductive Quoting where
  | basic
  | literal
  | basicBlock
  | literalBlock
  deriving DecidableEq, Repr

/-! ## Writing -/

/-- A control character that stands in no quotes as itself. -/
def needsCode (c : Char) : Bool :=
  (c.toNat < 32 && c ≠ '\t' && c ≠ '\n') || c.toNat = 127

/-- The length of the longest run of `q` when `run` of them stand in front. -/
def longestRun (q : Char) : (run : Nat) → List Char → Nat
  | run, [] => run
  | run, c :: cs =>
    if c = q then longestRun q (run + 1) cs else Nat.max run (longestRun q 0 cs)

/-- The most quotes in a row that a block can hold. -/
def maxRun : Nat := 2

/-- The way to quote a text: without escapes when there is one, and on one line before a block. -/
def quotingOf (cs : List Char) : Quoting :=
  let coded := cs.any needsCode
  let escaped := coded || cs.contains '\\'
  let lines := cs.contains '\n'
  if !escaped && !lines && !cs.contains '"' then .basic
  else if !coded && !lines && !cs.contains '\'' then .literal
  else if !escaped && longestRun '"' 0 cs ≤ maxRun then .basicBlock
  else if !coded && longestRun '\'' 0 cs ≤ maxRun then .literalBlock
  else if lines then .basicBlock
  else .basic

def upperHexDigit (d : Nat) : Char := if d < 10 then digitChar d else Char.ofNat (55 + d)

/-- A character other than the double quote in double quotes. A block keeps its line breaks. -/
def escape (block : Bool) (c : Char) : List Char :=
  match c with
  | '\\' => ['\\', '\\']
  | '\t' => ['\\', 't']
  | '\n' => if block then ['\n'] else ['\\', 'n']
  | '\r' => ['\\', 'r']
  | c =>
    if c.toNat = 8 then ['\\', 'b']
    else if c.toNat = 12 then ['\\', 'f']
    else if needsCode c then
      ['\\', 'u', '0', '0', upperHexDigit (c.toNat / 16), upperHexDigit (c.toNat % 16)]
    else [c]

/-- Characters in double quotes when `quotes` of these stand in front. -/
def escapeAll (block : Bool) : (quotes : Nat) → List Char → List Char
  | _, [] => []
  | quotes, c :: cs =>
    if c = '"' then
      if block && quotes < maxRun then '"' :: escapeAll block (quotes + 1) cs
      else '\\' :: '"' :: escapeAll block 0 cs
    else escape block c ++ escapeAll block 0 cs

/-- A block; a text of several lines starts on a line of its own. -/
def blockOf (quotes body : List Char) : List Char :=
  quotes ++ (if body.contains '\n' then '\n' :: body else body) ++ quotes

def quotedChars (cs : List Char) : List Char :=
  match quotingOf cs with
  | .basic => '"' :: escapeAll false 0 cs ++ ['"']
  | .literal => '\'' :: cs ++ ['\'']
  | .basicBlock => blockOf ['"', '"', '"'] (escapeAll true 0 cs)
  | .literalBlock => blockOf ['\'', '\'', '\''] cs

def quoted (s : String) : String := String.ofList (quotedChars s.toList)

/-! ## Reading -/

/-- A character that stands for itself in single quotes and in comments. -/
def isPrintable (c : Char) : Bool := c = '\t' || (32 ≤ c.toNat && c.toNat ≠ 127)

/-- The character that an escape of one letter stands for. -/
def letter? : Char → Option Char
  | 'b' => some '\x08'
  | 't' => some '\t'
  | 'n' => some '\n'
  | 'f' => some '\x0c'
  | 'r' => some '\r'
  | '"' => some '"'
  | '\\' => some '\\'
  | _ => none

/-- The character whose number is spelled by hexadecimal digits. -/
def coded? (digits : List Char) : Option Char := do
  let ds ← digits.mapM hexDigitValue?
  let n := ds.foldl (fun n d => 16 * n + d) 0
  if n.isValidChar then some (Char.ofNat n) else none

/-- Reads the rest of a text in double quotes. -/
def basic : List Char → Option (List Char × List Char)
  | [] => none
  | '"' :: rest => some ([], rest)
  | '\\' :: 'u' :: a :: b :: c :: d :: rest => do
    let x ← coded? [a, b, c, d]
    (basic rest).map fun (cs, rest) => (x :: cs, rest)
  | '\\' :: 'U' :: a :: b :: c :: d :: e :: f :: g :: h :: rest => do
    let x ← coded? [a, b, c, d, e, f, g, h]
    (basic rest).map fun (cs, rest) => (x :: cs, rest)
  | '\\' :: e :: rest => do
    let x ← letter? e
    (basic rest).map fun (cs, rest) => (x :: cs, rest)
  | c :: rest =>
    if isPrintable c && c ≠ '\\' then (basic rest).map fun (cs, rest) => (c :: cs, rest)
    else none

/-- Reads the rest of a text in single quotes. -/
def literal : List Char → Option (List Char × List Char)
  | [] => none
  | '\'' :: rest => some ([], rest)
  | c :: rest =>
    if isPrintable c then (literal rest).map fun (cs, rest) => (c :: cs, rest) else none

/-- What may follow the three quotes that close a block: up to two more belong to the text. -/
def closing (q : Char) : List Char → List Char × List Char
  | a :: b :: rest =>
    if a = q then if b = q then ([q, q], rest) else ([q], b :: rest) else ([], a :: b :: rest)
  | [a] => if a = q then ([q], []) else ([], [a])
  | [] => ([], [])

def isGap (c : Char) : Bool := c = ' ' || c = '\t' || c = '\n'

/-- Whether nothing but blanks stands before the end of the line. -/
def endsLine (cs : List Char) : Bool :=
  (cs.dropWhile fun c => c = ' ' || c = '\t').head? = some '\n'

/-- Reads the rest of a block in double quotes. A backslash at the end of a line takes the line
break away with all blanks that follow; `skip` says that these are being passed. -/
def basicBlock : (skip : Bool) → List Char → Option (List Char × List Char)
  | _, [] => none
  | _, '"' :: '"' :: '"' :: rest => some (closing '"' rest)
  | _, '\\' :: 'u' :: a :: b :: c :: d :: rest => do
    let x ← coded? [a, b, c, d]
    (basicBlock false rest).map fun (cs, rest) => (x :: cs, rest)
  | _, '\\' :: 'U' :: a :: b :: c :: d :: e :: f :: g :: h :: rest => do
    let x ← coded? [a, b, c, d, e, f, g, h]
    (basicBlock false rest).map fun (cs, rest) => (x :: cs, rest)
  | _, '\\' :: e :: rest =>
    if isGap e then if endsLine (e :: rest) then basicBlock true rest else none
    else do
      let x ← letter? e
      (basicBlock false rest).map fun (cs, rest) => (x :: cs, rest)
  | skip, c :: rest =>
    if skip && isGap c then basicBlock true rest
    else if (isPrintable c || c = '\n') && c ≠ '\\' then
      (basicBlock false rest).map fun (cs, rest) => (c :: cs, rest)
    else none

/-- Reads the rest of a block in single quotes. -/
def literalBlock : List Char → Option (List Char × List Char)
  | [] => none
  | '\'' :: '\'' :: '\'' :: rest => some (closing '\'' rest)
  | c :: rest =>
    if isPrintable c || c = '\n' then (literalBlock rest).map fun (cs, rest) => (c :: cs, rest)
    else none

/-- Drops the line break that a block may start with. -/
def blockStart : List Char → List Char
  | '\n' :: rest => rest
  | cs => cs

def quotedText : List Char → Option (List Char × List Char)
  | '"' :: '"' :: '"' :: rest => basicBlock false (blockStart rest)
  | '"' :: rest => basic rest
  | '\'' :: '\'' :: '\'' :: rest => literalBlock (blockStart rest)
  | '\'' :: rest => literal rest
  | _ => none

end Calldata.Toml
