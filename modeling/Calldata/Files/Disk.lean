import Calldata.Files

/-!
# Disks

A file system as a value: what stands at its places, what its files hold, and the folder where the
program runs. A file may be shown at several places, and a link stands for a path. An access may be
refused, and a write may break off. Nothing changes but by writing, and nothing is taken away.
-/

namespace Calldata

/-- The names that lead from the root to a file or folder. -/
abbrev Place := List String

inductive Node where
  /-- A file, by its number. -/
  | file (number : Nat)
  | folder
  /-- A link, with the path that it stands for. -/
  | link (target : String)
  /-- A device: what is read from it, and what is written to it is gone. -/
  | device (input : Bytes)
  deriving DecidableEq, Repr

/-- What may be asked of a place: its bytes, to write there, or the names in a folder. -/
inductive Access where
  | read
  | write
  | search
  deriving DecidableEq, Repr

/-- A file system with the folder where the program runs. -/
structure Disk where
  nodes : List (Place × Node)
  /-- What the files hold, by their numbers. A file that is not listed is empty. -/
  contents : List (Nat × Bytes)
  here : Place
  /-- Why an access is refused, also at a place where nothing stands as yet. -/
  refuses : Access → Place → Option FileFault := fun _ _ => none
  /-- After how many bytes a write to a place breaks off, and why. -/
  limit : Place → Option (Nat × FileFault) := fun _ => none

namespace Disk

open Files (names staysAt folderOf)

/-! ## Places -/

/-- What is at a place. The root is a folder. -/
def node? (d : Disk) (p : Place) : Option Node :=
  if p = [] then some .folder else d.nodes.lookup p

def put (d : Disk) (p : Place) (n : Node) : Disk := { d with nodes := (p, n) :: d.nodes }

def content (d : Disk) (number : Nat) : Bytes := (d.contents.lookup number).getD []

def fill (d : Disk) (number : Nat) (content : Bytes) : Disk :=
  { d with contents := (number, content) :: d.contents }

/-- A number that no file has. -/
def fresh (d : Disk) : Nat :=
  d.nodes.foldr (fun entry next =>
    match entry.2 with
    | .file number => Nat.max (number + 1) next
    | _ => next) 0

/-! ## Paths -/

/-- The most bytes of a name. -/
def maxName : Nat := 255

/-- The most bytes of a path by which a file is opened. -/
def maxPath : Nat := 4095

/-- The most links that are followed on a path. -/
def maxLinks : Nat := 40

/-- Where a path starts that is met at a place. -/
def start (p : Place) (path : String) : Place := if path.toList.head? = some '/' then [] else p

def allowed (d : Disk) (access : Access) (p : Place) : Except FileFault Unit :=
  match d.refuses access p with
  | none => .ok ()
  | some e => .error e

def inFolder (d : Disk) (p : Place) : Except FileFault Unit :=
  match d.node? p with
  | some .folder => .ok ()
  | some _ => .error .notFolder
  | none => .error .missing

/-- Whether a place can be left by a name. Only a folder can, also by a name that stays there. -/
def leave (d : Disk) (p : Place) (name : String) : Except FileFault Unit := do
  d.inFolder p
  if name ≠ "" then d.allowed .search p
  if maxName < name.utf8ByteSize then .error .tooLong

/-- Where a name leads from a folder. -/
inductive Step where
  | at (q : Place)
  | link (target : String)
  /-- Nothing stands under the name. -/
  | free

def step (d : Disk) (p : Place) (name : String) : Step :=
  if staysAt name then .at p
  else if name = ".." then .at p.dropLast
  else
    match d.node? (p ++ [name]) with
    | none => .free
    | some (.link target) => .link target
    | some _ => .at (p ++ [name])

/-- Follows names, and hands over to `follow` at a link. To make a file, the last name may lead to where
nothing stands. -/
def walkWith (d : Disk) (making : Bool) (follow : Place → List String → Except FileFault Place) :
    (p : Place) → List String → Except FileFault Place
  | p, [] => .ok p
  | p, name :: rest =>
    match d.leave p name with
    | .error e => .error e
    | .ok _ =>
      match d.step p name with
      | .at q => d.walkWith making follow q rest
      | .link target => follow (start p target) (names target ++ rest)
      | .free => if making && rest.isEmpty then .ok (p ++ [name]) else .error .missing

/-- Follows names through at most `links` links. -/
def walk (d : Disk) (making : Bool) : (links : Nat) → (p : Place) → List String → Except FileFault Place
  | 0 => d.walkWith making fun _ _ => .error .linked
  | links + 1 => d.walkWith making (d.walk making links)

def checkPath (path : String) : Except FileFault Unit :=
  if path.toList.contains '\x00' then .error .badName
  else if path = "" then .error .missing
  else .ok ()

/-- Refuses paths by which nothing can be opened. -/
def checkOpen (path : String) : Except FileFault Unit := do
  checkPath path
  if maxPath < path.utf8ByteSize then throw .tooLong

/-- The place that a path leads to. -/
def place (d : Disk) (path : String) : Except FileFault Place :=
  d.walk false maxLinks (start d.here path) (names path)

def pathOf (p : Place) : String := if p = [] then "/" else "/" ++ "/".intercalate p

/-! ## Reading -/

/-- The bytes that are read at a place. -/
def bytesAt (d : Disk) (p : Place) : Except FileFault Bytes :=
  match d.node? p with
  | some (.file number) => .ok (d.content number)
  | some (.device input) => .ok input
  | some .folder => .error .isFolder
  | some (.link _) => .error .linked
  | none => .error .missing

def read (d : Disk) (path : String) : Except FileFault Bytes := do
  checkOpen path
  let p ← d.place path
  d.allowed .read p
  d.bytesAt p

/-- The full path of something that exists. It is found name by name, so only names are bounded. -/
def resolve (d : Disk) (path : String) : Except FileFault String := do
  checkPath path
  return pathOf (← d.place path)

/-! ## Writing -/

/-- The folder that a name leads to from a place, or none when it is still to be made there. -/
def folderBy (d : Disk) (p : Place) (name : String) (last : Bool) : Except FileFault (Option Place) :=
  let standing (q : Place) : Except FileFault (Option Place) :=
    if last && d.node? q ≠ some .folder then .error .taken else .ok (some q)
  match d.leave p name with
  | .error e => .error e
  | .ok _ =>
    match d.step p name with
    | .at q => standing q
    | .free => (d.allowed .write p).map fun _ => none
    | .link _ =>
      match d.walk false maxLinks p [name] with
      | .ok q => standing q
      | .error e => .error (if last || e = .missing then .taken else e)

/-- Follows names through folders, and makes those that are missing. Those that were made before a
fault stay. -/
def makeFolders (d : Disk) : (p : Place) → List String → Disk × Except FileFault Unit
  | _, [] => (d, .ok ())
  | p, name :: rest =>
    match d.folderBy p name rest.isEmpty with
    | .error e => (d, .error e)
    | .ok (some q) => d.makeFolders q rest
    | .ok none => (d.put (p ++ [name]) .folder).makeFolders (p ++ [name]) rest

/-- Makes the folders that a path leads through. -/
def prepare (d : Disk) (folder : String) : Disk × Except FileFault Unit :=
  if folder = "" then (d, .ok ())
  else
    match checkOpen folder with
    | .error e => (d, .error e)
    | .ok _ => d.makeFolders (start d.here folder) (names folder)

/-- Opens something to be written, which is made as an empty file when nothing is there. -/
def openNode (d : Disk) (path : String) : Disk × Except FileFault Place :=
  match checkOpen path with
  | .error e => (d, .error e)
  | .ok _ =>
    if path.toList.getLast? = some '/' then (d, .error .isFolder)
    else
      match d.walk true maxLinks (start d.here path) (names path) with
      | .error e => (d, .error e)
      | .ok p =>
        match d.node? p with
        | none =>
          match d.allowed .write p.dropLast with
          | .error e => (d, .error e)
          | .ok _ => (d.put p (.file d.fresh), .ok p)
        | some .folder => (d, .error .isFolder)
        | some (.link _) => (d, .error .linked)
        | some _ => (d, (d.allowed .write p).map fun _ => p)

/-- Opens something to be written, in folders that are made first. -/
def reach (d : Disk) (path : String) : Disk × Except FileFault Place :=
  match d.prepare (folderOf path) with
  | (d, .error e) => (d, .error e)
  | (d, .ok _) => d.openNode path

/-- What a write brings to a place before it breaks off. -/
def brought (d : Disk) (p : Place) (content : Bytes) : Bytes :=
  match d.limit p with
  | none => content
  | some (most, _) => content.take most

/-- Why a write to a place breaks off. -/
def breach? (d : Disk) (p : Place) (content : Bytes) : Option FileFault :=
  match d.limit p with
  | none => none
  | some (most, e) => if most < content.length then some e else none

/-- Empties what stands at a place, and writes there. -/
def pour (d : Disk) (p : Place) (content : Bytes) : Disk :=
  match d.node? p with
  | some (.file number) => d.fill number (d.brought p content)
  | _ => d

/-- Writes a file, and tells what became of it. -/
def store (d : Disk) (path : String) (content : Bytes) : Disk × Except FileFault Unit :=
  match d.reach path with
  | (d, .error e) => (d, .error e)
  | (d, .ok p) =>
    (d.pour p content,
      match d.breach? p content with
      | none => .ok ()
      | some e => .error e)

/-- The disk after a write that does all that it is asked for. -/
def write (d : Disk) (path : String) (content : Bytes) : Except FileFault Disk :=
  let (d, result) := d.store path content
  result.map fun _ => d

instance : Files (StateM Disk) where
  read path := fun d => (d.read path, d)
  resolve path := fun d => (d.resolve path, d)
  write path content := fun d =>
    let (d, result) := d.store path content
    (result, d)

end Disk

end Calldata
