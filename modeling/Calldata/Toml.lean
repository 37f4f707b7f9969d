import Calldata.Numeral

/-!
# Settings files

The values of a settings file and how its tables grow. A table is made by its own heading, by the
heading of a table inside it, or by a dotted key; where it may be extended depends on which. No
key is given twice.
-/

namespace Calldata

namespace Toml

inductive Origin where
  /-- By a heading of its own. -/
  | heading
  /-- By the heading of a table inside it. -/
  | implied
  /-- By a dotted key. -/
  | dotted
  /-- Written out as a value, and closed by that. -/
  | inlined
  deriving DecidableEq, Repr

end Toml

/-- A value of a settings file. Numbers and moments are kept as they are written. -/
inductive Toml where
  | string (s : String)
  | bool (b : Bool)
  | number (written : String)
  | moment (written : String)
  | array (items : List Toml)
  | table (origin : Toml.Origin) (entries : List (String × Toml))
  | tables (items : List (List (String × Toml)))
  deriving Inhabited

namespace Toml

/-- The entries of a table in the order of their first mention. -/
abbrev Entries := List (String × Toml)

def lookup? (key : String) (entries : Entries) : Option Toml := List.lookup key entries

/-- Gives a key a value, in its place when it is there. -/
def put (key : String) (value : Toml) : Entries → Entries
  | [] => [(key, value)]
  | (k, v) :: rest => if k = key then (k, value) :: rest else (k, v) :: put key value rest

/-- Adds a value under a dotted key. Tables on the way are made; those that are there may not have
a heading, and the last of them has to be made by dotted keys. -/
def add (value : Toml) : (path : List String) → Entries → Option Entries
  | [], _ => none
  | [key], entries =>
    match lookup? key entries with
    | none => some (put key value entries)
    | some _ => none
  | key :: next :: path, entries =>
    match lookup? key entries with
    | none => (add value (next :: path) []).map fun t => put key (table .dotted t) entries
    | some (table origin t) =>
      if origin = .heading ∨ origin = .inlined ∨ (path = [] ∧ origin ≠ .dotted) then none
      else (add value (next :: path) t).map fun t => put key (table origin t) entries
    | some (tables ts) =>
      match ts.getLast?, path with
      | some t, _ :: _ =>
        (add value (next :: path) t).map fun t => put key (tables (ts.dropLast ++ [t])) entries
      | _, _ => none
    | some _ => none

/-- Changes the table that a heading's path leads to. Tables on the way are made, and a list of
tables stands for its last one. -/
def within (change : Entries → Option Entries) : (path : List String) → Entries → Option Entries
  | [], entries => change entries
  | key :: path, entries =>
    match lookup? key entries with
    | none => (within change path []).map fun t => put key (table .implied t) entries
    | some (table origin t) =>
      if origin = .inlined then none
      else (within change path t).map fun t => put key (table origin t) entries
    | some (tables ts) =>
      match ts.getLast? with
      | some t =>
        (within change path t).map fun t => put key (tables (ts.dropLast ++ [t])) entries
      | none => none
    | some _ => none

/-- Opens a table by its heading. It may be there only as an implied one. -/
def openTable (key : String) (entries : Entries) : Option Entries :=
  match lookup? key entries with
  | none => some (put key (table .heading []) entries)
  | some (table .implied t) => some (put key (table .heading t) entries)
  | some _ => none

/-- Opens a further table in a list of them. -/
def openItem (key : String) (entries : Entries) : Option Entries :=
  match lookup? key entries with
  | none => some (put key (tables [[]]) entries)
  | some (tables ts) => some (put key (tables (ts ++ [[]])) entries)
  | some _ => none

end Toml

end Calldata
