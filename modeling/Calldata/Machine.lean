import Calldata.Fault

/-!
# Machine arithmetic

Sums and products as 64 bits have them. One that 64 bits cannot hold ends the program in a trap, unless
it is looked at before it is used.
-/

namespace Calldata

/-- What a machine cannot do, or should not. -/
inductive Trap where
  | overflow (a b : Nat)
  | outside (start stop : Nat)
  | longList (count : Nat)
  deriving DecidableEq, Repr

/-- Why a step on a machine ends without a result. -/
inductive Stop where
  | trap (cause : Trap)
  | fault (cause : Fault)

namespace Guarded

/-- A sum that nobody looks at. -/
def add (a b : Nat) : Except Stop Nat :=
  if a + b ≤ maxSize then .ok (a + b) else .error (.trap (.overflow a b))

/-- A product that nobody looks at. -/
def mul (a b : Nat) : Except Stop Nat :=
  if a * b ≤ maxSize then .ok (a * b) else .error (.trap (.overflow a b))

/-- A sum that is looked at: none when 64 bits cannot hold it. -/
def checkedAdd (a b : Nat) : Option Nat := if a + b ≤ maxSize then some (a + b) else none

def checkedMul (a b : Nat) : Option Nat := if a * b ≤ maxSize then some (a * b) else none

/-- A step that takes no arithmetic. -/
def plain {α : Type} : Except Fault α → Except Stop α := Except.mapError .fault

@[simp] theorem plain_ok {α : Type} (a : α) : plain (.ok a) = .ok a := rfl

@[simp] theorem plain_error {α : Type} (e : Fault) : (plain (.error e) : Except Stop α) = .error (.fault e) := rfl

end Guarded

end Calldata
