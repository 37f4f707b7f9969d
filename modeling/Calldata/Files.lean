import Calldata.Text.Split
import Calldata.Text.Utf8

/-!
# Files

What a program may ask of a file system, and why it is refused. A text that stands in a file is in
UTF-8.
-/

namespace Calldata

inductive FileFault where
  | missing
  | notFolder
  | isFolder
  | taken
  | denied
  | noRoom
  | tooLong
  /-- Too many links on a path. -/
  | linked
  | notText
  | badName
  /-- Anything else, in the words of the file system. -/
  | other (cause : String)
  deriving DecidableEq, Repr

namespace FileFault

def message : FileFault → String
  | missing => "No such file or directory (os error 2)"
  | notFolder => "Not a directory (os error 20)"
  | isFolder => "Is a directory (os error 21)"
  | taken => "File exists (os error 17)"
  | denied => "Permission denied (os error 13)"
  | noRoom => "No space left on device (os error 28)"
  | tooLong => "File name too long (os error 36)"
  | linked => "Too many levels of symbolic links (os error 40)"
  | notText => "stream did not contain valid UTF-8"
  | badName => "file name contained an unexpected NUL byte"
  | other cause => cause

end FileFault

namespace Files

/-! ## Paths -/

/-- The names in a path. Nothing between two slashes is a name too. -/
def names (path : String) : List String := (Text.split '/' path.toList).map String.ofList

/-- Whether a name leads from a folder to itself. -/
def staysAt (name : String) : Bool := name = "" || name = "."

/-- The path in front of the last name that leads on. -/
def folderOf (path : String) : String :=
  "/".intercalate (((names path).reverse.dropWhile staysAt).drop 1).reverse

end Files

/-- Access to a file system. Paths are relative to the folder where the program runs. -/
class Files (m : Type → Type) where
  /-- The content of a file. -/
  read (path : String) : m (Except FileFault Bytes)
  /-- The full path of a file or folder that exists. -/
  resolve (path : String) : m (Except FileFault String)
  /-- Writes a file, and makes the folders above it that are missing. -/
  write (path : String) (content : Bytes) : m (Except FileFault Unit)

def Files.readText {m : Type → Type} [Monad m] [Files m] (path : String) :
    m (Except FileFault String) := do
  match ← Files.read path with
  | .error e => pure (.error e)
  | .ok bs =>
    match Text.ofUtf8 bs with
    | .ok s => pure (.ok s)
    | .error _ => pure (.error .notText)

end Calldata
