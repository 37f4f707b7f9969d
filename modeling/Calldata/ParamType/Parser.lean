import Calldata.Fault
import Calldata.Text.Blank

/-!
# Reading type names

A type name is a word, or a type name followed by a bracket pair. The last pair is the outermost
array. Blanks may stand around every type name, but not inside a word or a pair.
-/

namespace Calldata.ParamType

/-- The text in front of the last `c`, and the text behind it. -/
def splitLast (c : Char) : List Char → Option (List Char × List Char)
  | [] => none
  | a :: rest =>
    match splitLast c rest with
    | some (front, back) => some (a :: front, back)
    | none => if a = c then some ([], rest) else none

theorem eq_of_splitLast {c : Char} {cs front back : List Char}
    (h : splitLast c cs = some (front, back)) : cs = front ++ c :: back := by
  induction cs generalizing front with
  | nil => simp [splitLast] at h
  | cons a rest ih =>
    rw [splitLast] at h
    split at h
    · rename_i f b hs
      simp only [Option.some.injEq, Prod.mk.injEq] at h
      obtain ⟨rfl, rfl⟩ := h
      simp [ih hs]
    · split at h <;> simp_all

theorem length_lt_of_splitLast {c : Char} {cs front back : List Char}
    (h : splitLast c cs = some (front, back)) : front.length < cs.length := by
  have := congrArg List.length (eq_of_splitLast h)
  simp at this
  omega

def keyword? (name : List Char) : Option ParamType :=
  [bool, identifier .address, identifier .hash, bytes32, identifier .token, bytes, string,
    function].find? fun t => t.nameChars = name

/-- The text behind `front`. -/
def behind? (front cs : List Char) : Option (List Char) :=
  if front.isPrefixOf cs then some (cs.drop front.length) else none

/-- Reads the width at the end of `name`; none is written for a whole word. -/
def width (name digits : List Char) : Except Fault Nat :=
  if digits = [] then .ok 256
  else
    match numeral? digits with
    | none => .error (.unknownType (String.ofList name))
    | some bits => if IsWidth bits then .ok bits else .error (.badWidth (String.ofList name))

def ofWord (name : List Char) : Except Fault ParamType :=
  match keyword? name with
  | some t => .ok t
  | none =>
    match behind? "uint".toList name, behind? "int".toList name with
    | some digits, _ => (width name digits).map uint
    | none, some digits => (width name digits).map int
    | none, none => .error (.unknownType (String.ofList name))

/-- Adds the array of a bracket pair with this text inside. -/
def bracketed (name inner : List Char) (elem : ParamType) : Except Fault ParamType :=
  if inner = [] then .ok (array elem)
  else
    match numeral? inner with
    | some n =>
      if IsArrayLength n then .ok (fixedArray elem n)
      else .error (.malformedArray (String.ofList name))
    | none => .error (.malformedArray (String.ofList name))

/-- The text inside a bracket pair whose opening bracket is gone. -/
def closed? (cs : List Char) : Option (List Char) :=
  if cs.getLast? = some ']' then some cs.dropLast else none

/-- Reads a type name. The element type is read before the length of its array. -/
def parseChars (cs : List Char) : Except Fault ParamType :=
  let name := Text.trim cs
  match _h : splitLast '[' name with
  | none =>
    if ']' ∈ name then .error (.malformedArray (String.ofList name)) else ofWord name
  | some (front, back) =>
    match closed? back with
    | none => .error (.malformedArray (String.ofList name))
    | some inner =>
      if front = [] then .error (.malformedArray (String.ofList name))
      else
        match parseChars front with
        | .error e => .error e
        | .ok elem => bracketed name inner elem
termination_by cs.length
decreasing_by
  exact Nat.lt_of_lt_of_le (length_lt_of_splitLast _h) (Text.length_trim_le cs)

/-- Reads a type name such as `uint8`, `address[3]` or `uint[][2]`. -/
def parse (name : String) : Except Fault ParamType := parseChars name.toList

end Calldata.ParamType
