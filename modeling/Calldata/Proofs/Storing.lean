import Calldata.Files.Disk

/-!
# What a write changes

A write that opens nothing changes no file, though it may leave new folders behind. One that opens
something changes that alone, as far as it gets, and every path that led somewhere before still leads
there.
-/

namespace Calldata

namespace Disk

open Files (staysAt folderOf)

variable {d d' d'' : Disk} {p q r : Place} {name path full : String} {names : List String} {content : Bytes}
  {n : Node} {number : Nat} {making : Bool} {links : Nat} {follow follow' : Place → List String → Except FileFault Place}

/-- The content of the file at a place. -/
def file? (d : Disk) (p : Place) : Option Bytes :=
  match d.node? p with
  | some (.file number) => some (d.content number)
  | _ => none

/-- Nothing is taken away, and nothing becomes something else. -/
structure Grows (d d' : Disk) : Prop where
  here : d'.here = d.here
  refuses : d'.refuses = d.refuses
  limit : d'.limit = d.limit
  nodes (p : Place) (n : Node) (h : d.node? p = some n) : d'.node? p = some n

theorem Grows.trans (h : Grows d d') (h' : Grows d' d'') : Grows d d'' where
  here := h'.here.trans h.here
  refuses := h'.refuses.trans h.refuses
  limit := h'.limit.trans h.limit
  nodes p n hp := h'.nodes p n (h.nodes p n hp)

/-- Folders were put where nothing was, and no file changed. -/
structure Prepared (d d' : Disk) : Prop where
  grows : Grows d d'
  folders (q : Place) (h : d.node? q = none) : d'.node? q = none ∨ d'.node? q = some .folder
  files (q : Place) : d'.file? q = d.file? q

theorem Prepared.trans (h : Prepared d d') (h' : Prepared d' d'') : Prepared d d'' where
  grows := h.grows.trans h'.grows
  folders q hq := (h.folders q hq).elim (h'.folders q) fun hfolder => .inr (h'.grows.nodes q _ hfolder)
  files q := (h'.files q).trans (h.files q)

/-- The place `q` does not show what stands at `p`. -/
def Apart (d : Disk) (p q : Place) : Prop := q ≠ p ∧ (d.node? p = none ∨ d.node? q ≠ d.node? p)

/-- A write opened something at `p`, and brought there what it could. -/
structure Written (d : Disk) (path : String) (content : Bytes) (d' : Disk) (p : Place) : Prop where
  grows : Grows d d'
  openable : checkOpen path = .ok ()
  place : d'.place path = .ok p
  brought : (∃ input, d'.node? p = some (.device input)) ∨ d'.file? p = some (d.brought p content)
  others (q : Place) (h : d.Apart p q) : d'.file? q = d.file? q

end Disk

end Calldata
