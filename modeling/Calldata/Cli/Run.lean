import Calldata.Cli.Invocation
import Calldata.Cli.LogFilter
import Calldata.Cli.Report
import Calldata.Cli.Settings
import Calldata.Interface.Description
import Calldata.Value.Json

/-!
# Runs

What the commands do. A command reads what it needs before it writes anything, and only the one
that edits the settings writes. Which texts are log filters is for a check to say, which reads them as
directives unless another one is given.
-/

namespace Calldata.Cli

variable {m : Type → Type} [Monad m] [Files m]

/-- A command on a file system: it may fail. -/
abbrev Task (m : Type → Type) := ExceptT Failure m

def Task.of {α ε : Type} (failure : ε → Failure) (r : Except ε α) : Task m α :=
  ExceptT.mk (pure (r.mapError failure))

/-- A file operation that fails in its own words. -/
def Task.files {α : Type} (failure : FileFault → Failure) (r : m (Except FileFault α)) :
    Task m α :=
  ExceptT.mk do return (← r).mapError failure

/-! ## Signatures and types -/

/-- Tells a signature in canonical form with its selector. -/
def selectorReport (signature : String) : Except Failure Report :=
  match Signature.parse signature with
  | .error e => .error (.badSignature e)
  | .ok s =>
    let selector := Hex.marked (selectorOf s.text)
    .ok {
      lines := [selector ++ "  " ++ s.text]
      fields := [("signature", .string s.text),
        ("hash", .string (Sha3.digest (Text.utf8 s.text)).text),
        ("selector", .string selector)] }

/-- Tells a type in canonical form with its layout. -/
def typeReport (name : String) : Except Failure Report :=
  match ParamType.parse name with
  | .error e => .error (.codec e)
  | .ok t =>
    if t.isDynamic then
      .ok {
        lines := [t.name ++ ": dynamic, head slot " ++ decimal t.headSize ++ " bytes"]
        fields := [("dynamic", .bool true), ("type", .string t.name)] }
    else
      .ok {
        lines := [t.name ++ ": static, " ++ decimal t.staticSize ++ " bytes"]
        fields := [("dynamic", .bool false), ("size", .integer t.staticSize),
          ("type", .string t.name)] }

/-! ## Calls -/

def loadInterface (path : Option String) : Task m Interface := do
  match path with
  | none => throw .noInterface
  | some path => do
    let text ← Task.files .file (Files.readText path)
    Task.of .codec (Interface.parse text)

def selectorText (f : Function) : String := Hex.marked f.selector

def functionsReport (i : Interface) : Report where
  lines := i.functions.map fun f => selectorText f ++ "  " ++ f.signature
  fields := [("functions", .array (i.functions.map fun f =>
    Json.ofFields [("signature", .string f.signature), ("selector", .string (selectorText f))]))]

/-- Encodes a call of the function with a name, with arguments in JSON. -/
def encodeText (i : Interface) (name arguments : String) : Except Failure (Function × Bytes) :=
  match i.named? name with
  | none => .error (.codec (.unknownFunction name))
  | some f =>
    match Json.read? arguments with
    | none => .error .malformedArguments
    | some j =>
      match Value.ofJsonArguments f.types j with
      | .error e => .error (.codec e)
      | .ok values => ((Guarded.encodeCall f values).map (f, ·)).mapError .ofStop

def encodeReport (f : Function) (call : Bytes) : Report where
  lines := [Hex.marked call]
  fields := [("function", .string f.signature), ("selector", .string (selectorText f)),
    ("data", .string (Hex.marked call))]

/-- Reads the payload of a call. Blanks may stand around it, and a marker of either case in front
of it. -/
def payloadOf (text : String) : Except HexFault Bytes :=
  let cs := Text.trim text.toList
  Hex.decode (Text.utf8 (String.ofList ((Hex.markedDigits? cs).getD cs)))

def decodeText (i : Interface) (data : String) : Except Failure (Function × List Value) :=
  match payloadOf data with
  | .error e => .error (.badHex e)
  | .ok call => (i.decodeCall call).mapError .codec

def decodeReport (f : Function) (values : List Value) : Report where
  lines := f.signature :: (f.inputs.zip values).map fun (p, v) =>
    "  " ++ p.type.name ++ " " ++ p.name ++ " = " ++ v.text
  fields := [("function", .string f.signature), ("selector", .string (selectorText f)),
    ("arguments", .array ((f.inputs.zip values).map fun (p, v) =>
      Json.ofFields [("name", .string p.name), ("type", .string p.type.name),
        ("value", v.toJson)]))]

/-! ## Settings -/

/-- The settings with the full path of an interface, when one is given. -/
def withInterface (settings : Settings) : (interface : Option String) → Task m Settings
  | none => pure settings
  | some path => do
    let full ← Task.files (.badPath path) (Files.resolve path)
    pure { settings with interface := some full }

/-- The settings with a log filter, when one is given. -/
def withLogLevel (check : LogFilter.Check) (settings : Settings) : (logLevel : Option String) → Task m Settings
  | none => pure settings
  | some filter => do
    Task.of .badFilter (check filter)
    pure { settings with logLevel := filter }

/-- The settings with those replaced that are given. Both are checked before either counts. -/
def editedSettings (check : LogFilter.Check) (settings : Settings) (interface logLevel : Option String) :
    Task m Settings := do
  withLogLevel check (← withInterface settings interface) logLevel

def savedReport : Report where
  lines := ["Configuration saved"]
  fields := [("status", .string "saved")]

def settingsReport (s : Settings) : Report :=
  let interface := s.interface.getD ""
  { lines := ["ABI file: " ++ (if interface = "" then "(none)" else interface),
      "JSON output: " ++ (if s.json then "true" else "false"),
      "Log level: " ++ s.logLevel]
    fields := [("abi_path", .string interface), ("json", .bool s.json),
      ("log_level", .string s.logLevel)] }

def hintReport : Report where
  lines := ["Use --show to display config, or --set-abi/--set-log-level to modify"]
  fields := []

/-! ## Runs -/

namespace Command

/-- Runs a command with the settings from the file at `settingsPath`. -/
def perform (check : LogFilter.Check) (settingsPath : String) (settings : Settings) (interface : Option String) :
    Command → Task m Report
  | selector signature => Task.of id (selectorReport signature)
  | type name => Task.of id (typeReport name)
  | functions => do return functionsReport (← loadInterface interface)
  | encode function arguments => do
    let i ← loadInterface interface
    let (f, call) ← Task.of id (encodeText i function arguments)
    return encodeReport f call
  | decode data => do
    let i ← loadInterface interface
    let (f, values) ← Task.of id (decodeText i data)
    return decodeReport f values
  | config view interface logLevel => do
    if interface.isSome || logLevel.isSome then
      let edited ← editedSettings check settings interface logLevel
      Task.files .file (edited.save settingsPath)
      return savedReport
    else return if view then settingsReport settings else hintReport

end Command

def versionLine : String := "wabi 0.1.0\n"

def usage : String :=
  "Usage: wabi [--json] [--abi <ABI>] [--log-level <LOG_LEVEL>] <COMMAND>\n\n" ++
  "Commands:\n" ++
  "  selector <SIGNATURE>\n" ++
  "  type <NAME>\n" ++
  "  functions\n" ++
  "  encode <FUNCTION> [ARGS]\n" ++
  "  decode <DATA>\n" ++
  "  config [--show] [--set-abi <SET_ABI>] [--set-log-level <SET_LOG_LEVEL>]\n" ++
  "  help [COMMAND]\n"

def run (settingsPath : String) (args : List String) (check : LogFilter.Check := LogFilter.directives) :
    m Outcome := do
  match Invocation.ofArguments args with
  | .error .misuse => return .misuse
  | .error .help => return .guidance usage
  | .error .version => return .guidance versionLine
  | .ok i => do
    let settings ← Settings.load settingsPath
    let result ← (i.command.perform check settingsPath settings (i.interface.or settings.interface)).run
    return .ofResult (i.json || settings.json) result

end Calldata.Cli
