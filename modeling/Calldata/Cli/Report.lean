import Calldata.Files
import Calldata.Machine
import Calldata.Signature

/-!
# Reports

What a command tells: a report in lines of text or as one JSON object, or why it failed. What it tells
may not reach anyone, and then the run does not end as it was to end.
-/

namespace Calldata.Cli

/-- What a command that succeeds tells, in both forms. -/
structure Report where
  lines : List String
  fields : List (String × Json)

namespace Report

/-- The report in the form that is asked for. A text without a character is left out altogether. -/
def render (json : Bool) (r : Report) : String :=
  let text := if json then (Json.ofFields r.fields).pretty 0 else "\n".intercalate r.lines
  if text = "" then "" else text ++ "\n"

end Report

inductive Failure where
  | badHex (cause : HexFault)
  | badSignature (cause : SignatureFault)
  | noInterface
  | codec (cause : Fault)
  | file (cause : FileFault)
  | malformedArguments
  | badPath (path : String) (cause : FileFault)
  /-- A text that is no log filter, for a cause in the words of the filters. -/
  | badFilter (cause : String)
  /-- The run was trapped, and tells nothing itself. -/
  | trapped (cause : Trap)

namespace Failure

/-- The wording of a failure. Where a text stops being JSON is left open. -/
def message : Failure → String
  | badHex cause => "Invalid hex: " ++ cause.message
  | badSignature (.badType cause) => "ABI error: " ++ cause.message
  | badSignature cause => "Invalid input: " ++ cause.message
  | noInterface => "No ABI file given: pass --abi or set one with `wabi config --set-abi`"
  | codec cause => "ABI error: " ++ cause.message
  | file cause => "IO error: " ++ cause.message
  | malformedArguments => "JSON error: *"
  | badPath path cause => "Config error: " ++ path ++ ": " ++ cause.message
  | badFilter cause => "Config error: " ++ cause
  | trapped _ => "attempt to add with overflow"

def ofStop : Calldata.Stop → Failure
  | .fault cause => codec cause
  | .trap cause => trapped cause

def toJson (f : Failure) : Json :=
  Json.ofFields [("error", .string f.message), ("success", .bool false)]

end Failure

inductive Outcome where
  | success (output : String)
  /-- A failed command; the error is told apart from the output unless the output holds it. -/
  | failure (output : String) (error : Option String)
  /-- What is told about the program itself when it is asked for. -/
  | guidance (output : String)
  /-- Arguments that make no sense. -/
  | misuse
  /-- A run that stopped before it could tell how it ended. -/
  | crash
  deriving DecidableEq, Repr

/-- Which streams take what a run has to tell. What it logs is no part of that. -/
structure Streams where
  output : Bool := true
  errors : Bool := true

namespace Outcome

def code : Outcome → Nat
  | success _ => 0
  | failure _ _ => 1
  | guidance _ => 0
  | misuse => 2
  | crash => 101

def output : Outcome → String
  | success text | failure text _ | guidance text => text
  | misuse | crash => ""

def error? : Outcome → Option String
  | failure _ error => error
  | _ => none

/-- The outcome of a command, in the form that is asked for. -/
def ofResult (json : Bool) : Except Failure Report → Outcome
  | .ok r => success (r.render json)
  | .error (.trapped _) => crash
  | .error f =>
    if json then failure (f.toJson.compact ++ "\n") none else failure "" (some f.message)

/-- What becomes of an outcome that has to be told. A command stops when a stream does not take what it
has to tell; nothing is lost on a stream that gets nothing. -/
def told (outcome : Outcome) (streams : Streams) : Outcome :=
  match outcome with
  | success text => if text = "" || streams.output then outcome else crash
  | failure text error =>
    if (text = "" || streams.output) && (error.isNone || streams.errors) then outcome else crash
  | guidance _ | misuse | crash => outcome

end Outcome

end Calldata.Cli
