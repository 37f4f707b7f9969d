import Calldata.Files
import Calldata.Toml.Reader

/-!
# Settings

What the command line remembers between runs. The settings file is never in the way: one that
cannot be read, or that gives a setting a value of the wrong kind, counts as none.
-/

namespace Calldata.Cli

structure Settings where
  /-- The interface description that is used when none is given. -/
  interface : Option String
  /-- Whether reports are in JSON when it is not asked for. -/
  json : Bool
  /-- The log filter. -/
  logLevel : String
  deriving DecidableEq, Repr

namespace Settings

def standard : Settings := ⟨none, false, "warn"⟩

instance : Inhabited Settings := ⟨standard⟩

/-! ## Reading -/

/-- The string under a key, which has to be one when it is there. -/
def string? (key : String) (entries : Toml.Entries) : Option (Option String) :=
  match Toml.lookup? key entries with
  | none => some none
  | some (.string s) => some (some s)
  | some _ => none

/-- The truth value under a key, which has to be one when it is there. -/
def bool? (key : String) (entries : Toml.Entries) : Option (Option Bool) :=
  match Toml.lookup? key entries with
  | none => some none
  | some (.bool b) => some (some b)
  | some _ => none

/-- The settings in a table. Other keys are ignored. -/
def ofEntries? (entries : Toml.Entries) : Option Settings := do
  let interface ← string? "abi_path" entries
  let json ← bool? "json" entries
  let logLevel ← string? "log_level" entries
  pure ⟨interface, json.getD standard.json, logLevel.getD standard.logLevel⟩

def ofText? (text : String) : Option Settings := (Toml.read? text).bind ofEntries?

/-! ## Writing -/

def lineOf (key value : String) : String := key ++ " = " ++ value ++ "\n"

def text (s : Settings) : String :=
  (match s.interface with
    | some path => lineOf "abi_path" (Toml.quoted path)
    | none => "")
  ++ lineOf "json" (if s.json then "true" else "false")
  ++ lineOf "log_level" (Toml.quoted s.logLevel)

/-! ## Files -/

variable {m : Type → Type} [Monad m] [Files m]

/-- The settings in a file, or the standard ones. -/
def load (path : String) : m Settings := do
  match ← Files.readText path with
  | .ok text => pure ((ofText? text).getD standard)
  | .error _ => pure standard

def save (s : Settings) (path : String) : m (Except FileFault Unit) :=
  Files.write path (Text.utf8 s.text)

end Settings

end Calldata.Cli
