import Calldata.Cli.Run
import Calldata.Proofs.SettingsFile
import Calldata.Proofs.Storing

/-!
# Edits of the settings

What becomes of the settings file, by how a run ends. An edit whose settings are refused changes
nothing. One whose settings are accepted is written when the settings file can be opened, as far as
there is room, whether or not someone hears of it.
-/

namespace Calldata

namespace Cli

variable {α β ε : Type} {d d' d'' : Disk} {path : String} {args : List String} {s edited : Settings}
  {interface logLevel : Option String} {check : LogFilter.Check} {streams : Streams} {p : Place} {content : Bytes}

/-! ## Tasks on a disk -/

/-- How a task ends on a disk, and the disk that it leaves. -/
def Task.onDisk (t : Task (StateM Disk) α) (d : Disk) : Except Failure α × Disk := t.run d

variable {t : Task (StateM Disk) α} {f : α → Task (StateM Disk) β}

theorem onDisk_bind_ok {a : α} (h : t.onDisk d = (.ok a, d')) : (t >>= f).onDisk d = (f a).onDisk d' := by
  show StateT.bind t.run (ExceptT.bindCont f) d = _
  unfold StateT.bind
  rw [show t.run d = (.ok a, d') from h]
  rfl

theorem onDisk_bind_error {e : Failure} (h : t.onDisk d = (.error e, d')) : (t >>= f).onDisk d = (.error e, d') := by
  show StateT.bind t.run (ExceptT.bindCont f) d = _
  unfold StateT.bind
  rw [show t.run d = (.error e, d') from h]
  rfl

/-- A task leaves the disk as it finds it. -/
def ReadOnly (t : Task (StateM Disk) α) : Prop := ∀ d, (t.onDisk d).2 = d

theorem ReadOnly.onDisk_eq (ht : ReadOnly t) (d : Disk) : t.onDisk d = ((t.onDisk d).1, d) := Prod.ext rfl (ht d)

theorem ReadOnly.bind (ht : ReadOnly t) (hf : ∀ a, ReadOnly (f a)) : ReadOnly (t >>= f) := by
  intro d
  have hd := ht.onDisk_eq d
  cases hresult : (t.onDisk d).1 with
  | error e => rw [hresult] at hd; rw [onDisk_bind_error hd]
  | ok a => rw [hresult] at hd; rw [onDisk_bind_ok hd, hf a]

/-- What takes the place of the settings before: the path of an interface, and a log level. -/
structure Edit where
  interface : Option String
  logLevel : Option String
  deriving DecidableEq, Repr

namespace Edit

def none : Edit := ⟨.none, .none⟩

def ofCommand : Command → Edit
  | .config _ interface logLevel => ⟨interface, logLevel⟩
  | _ => none

/-- The edit that a run is asked for. -/
def ofArguments (args : List String) : Edit :=
  match Invocation.ofArguments args with
  | .ok i => ofCommand i.command
  | .error _ => none

/-- The full path of the interface, followed on a disk. -/
def full (edit : Edit) (d : Disk) : Option String := edit.interface.bind fun path => (d.resolve path).toOption

/-- One of the settings is not accepted, whatever the other one is. -/
inductive Refused (edit : Edit) (check : LogFilter.Check) (d : Disk) : Prop where
  | interface (path : String) (h : edit.interface = some path) (e : FileFault) (hpath : d.resolve path = .error e)
  | logLevel (filter : String) (h : edit.logLevel = some filter) (e : String) (hfilter : check filter = .error e)

end Edit

/-- Settings with the full path of an interface and a log level in the place of their own. -/
def Settings.edit (s : Settings) (full logLevel : Option String) : Settings :=
  { s with interface := full.or s.interface, logLevel := logLevel.getD s.logLevel }

variable {full : Option String}

/-- The settings that a run finds. -/
def loaded (path : String) (d : Disk) : Settings := ((Settings.load path : StateM Disk Settings) d).1

end Cli

end Calldata
