/-!
# Sets of characters as ranges of code points

`Ranges.contains` is membership in a list of closed ranges. The tables of this folder are such
lists, ascending and apart.
-/

namespace Outliner.Text

/-- Closed ranges of code points. -/
abbrev Ranges := List (Nat × Nat)

def Ranges.contains (rs : Ranges) (c : Char) : Bool :=
  rs.any fun r => r.1 ≤ c.toNat && c.toNat ≤ r.2

end Outliner.Text
