import Calldata.Cli.Run

/-!
# The program

The command line on the file system of the machine.
-/

namespace Calldata.Cli

/-- The number of a fault. Some operations tell its negative. -/
def faultNumber (code : UInt32) : Nat := Nat.min code.toNat (-code).toNat

/-- The fault with a number, or the one in its own words. -/
def faultOf (code : UInt32) (cause : IO.Error) : FileFault :=
  match faultNumber code with
  | 2 => .missing
  | 13 => .denied
  | 17 => .taken
  | 20 => .notFolder
  | 21 => .isFolder
  | 28 => .noRoom
  | 36 => .tooLong
  | 40 => .linked
  | _ => .other cause.toString

def fileFault (cause : IO.Error) : FileFault :=
  match cause with
  | .noFileOrDirectory .. => .missing
  | .alreadyExists .. => .taken
  | .inappropriateType _ code _ | .invalidArgument _ code _ | .permissionDenied _ code _
  | .resourceExhausted _ code _ => faultOf code cause
  | _ => .other cause.toString

def attempt {α : Type} (action : IO α) : IO (Except FileFault α) := do
  try return .ok (← action) catch e => return .error (fileFault e)

instance : Files IO where
  read path := attempt do return (← IO.FS.readBinFile path).toList
  resolve path := attempt do
    try return (← IO.FS.realPath path).toString
    catch e => do
      -- Opening fails for the same cause, and tells it.
      discard (IO.FS.Handle.mk path .read)
      throw e
  write path content := attempt do
    if Files.folderOf path ≠ "" then IO.FS.createDirAll (Files.folderOf path)
    IO.FS.writeBinFile path ⟨content.toArray⟩

/-- The settings file: where the environment says, or in the home folder. -/
def settingsPath : IO String := do
  match ← IO.getEnv "WABI_CONFIG" with
  | some path => return path
  | none => return (← IO.getEnv "HOME").getD "" ++ "/.wabi/config.toml"

/-- Writes to a stream, and says whether the stream took it. -/
def heard (action : IO Unit) : IO Bool := do
  try
    action
    return true
  catch _ => return false

/-- Runs the program, and tells what it has to tell. -/
def program (args : List String) : IO UInt32 := do
  let outcome : Outcome ← run (← settingsPath) args
  let output ← heard do
    IO.print outcome.output
    (← IO.getStdout).flush
  let errors ← heard do
    if outcome = .misuse then IO.eprintln usage
    if let some message := outcome.error? then IO.eprintln ("Error: " ++ message)
  return UInt32.ofNat (outcome.told ⟨output, errors⟩).code

end Calldata.Cli

def main (args : List String) : IO UInt32 := Calldata.Cli.program args
