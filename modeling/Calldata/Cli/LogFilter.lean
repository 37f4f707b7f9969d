import Calldata.Numeral
import Calldata.Text.Alphanumeric
import Calldata.Text.Blank
import Calldata.Text.Split

/-!
# Log filters

Which texts are log filters: directives with commas between them. A directive is a level, or a
target and a span in square brackets, either of which may be missing, with an optional level behind
an equals sign. A span may list fields in braces. The patterns for the values of fields are taken as
they are.
-/

namespace Calldata

inductive LogFilterFault where
  | badDirective
  | badLevel
  deriving DecidableEq, Repr

namespace LogFilterFault

def message : LogFilterFault → String
  | badDirective => "invalid filter directive"
  | badLevel =>
    "error parsing level filter: expected one of \"off\", \"error\", \"warn\", \"info\", " ++
      "\"debug\", \"trace\", or a number 0-5"

end LogFilterFault

namespace LogFilter

/-! ## Levels -/

def levelWords : List (List Char) :=
  ["off", "error", "warn", "info", "debug", "trace"].map String.toList

/-- The greatest level as a number. -/
def maxLevel : Nat := 5

def unsigned : List Char → List Char
  | '+' :: cs => cs
  | cs => cs

/-- Whether a text names a level, in words of any case or by number. Nothing is the default. -/
def isLevel (cs : List Char) : Bool :=
  cs.isEmpty || levelWords.contains (cs.map Char.toLower)
    || match numeral? (unsigned cs) with
      | some n => n ≤ maxLevel
      | none => false

/-! ## Directives -/

inductive Stage where
  | start
  | target
  | span
  | field (empty : Bool)
  | fieldsClosed
  | spanClosed
  | level (text : List Char)

def startsTarget (c : Char) : Bool := c = '-' || c = ':' || c = '_' || Text.isAlphanumeric c

def Stage.next : Stage → Char → Option Stage
  | start, '[' => some span
  | start, c => if startsTarget c then some target else none
  | target, '=' => some (level [])
  | target, '[' => some span
  | target, _ => some target
  | span, ']' => some spanClosed
  | span, '{' => some (field true)
  | span, _ => some span
  | field empty, '}' => if empty then none else some fieldsClosed
  | field _, _ => some (field false)
  | fieldsClosed, ']' => some spanClosed
  | fieldsClosed, _ => none
  | spanClosed, '=' => some (level [])
  | spanClosed, _ => none
  | level text, c => some (level (text ++ [c]))

/-- Checks a directive. Blanks around it do no harm unless it ends in a level. -/
def checkDirective (directive : List Char) : Except LogFilterFault Unit :=
  let cs := Text.trim directive
  match cs.foldlM Stage.next .start with
  | some .target | some .spanClosed => .ok ()
  | some (.level text) =>
    if cs = directive ∧ isLevel text then .ok () else .error .badLevel
  | _ => .error .badDirective

/-- Checks a log filter. Nothing between two commas is no directive. -/
def check (filter : String) : Except LogFilterFault Unit :=
  ((Text.split ',' filter.toList).filter (· ≠ [])).forM checkDirective

/-- Says which texts are log filters, and in its own words why another one is not. -/
abbrev Check := String → Except String Unit

/-- The check of directives. -/
def directives : Check := fun filter => (check filter).mapError LogFilterFault.message

end LogFilter

end Calldata
