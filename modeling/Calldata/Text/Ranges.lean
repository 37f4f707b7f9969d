/-!
# Ranges of code points

A Unicode property is given as the list of the ranges of code points that have it.
-/

namespace Calldata.Text

/-- Ranges of code points, first and last, in ascending order. -/
abbrev Ranges := List (Nat × Nat)

/-- Whether a character lies in one of the ranges. -/
def Ranges.has (rs : Ranges) (c : Char) : Bool :=
  rs.any fun r => r.1 ≤ c.toNat && c.toNat ≤ r.2

end Calldata.Text
