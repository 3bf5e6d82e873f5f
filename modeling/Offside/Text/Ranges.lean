/-!
# Tables of code points

A class of characters is a table of closed ranges of code points in ascending order.  A look-up reads
the table from the low end and stops at the first range that ends at or above the code point, so that
characters near the start of a table are found at once.
-/

namespace Offside.Text

/-- Closed ranges of code points, in ascending order and apart from each other. -/
abbrev Ranges := List (Nat × Nat)

/-- Does some range of an ascending table hold the code point? -/
def Ranges.holds : Ranges → Nat → Bool
  | [], _ => false
  | (lo, hi) :: rest, n => if n ≤ hi then decide (lo ≤ n) else holds rest n

/-- Is the character in the table? -/
def Ranges.contains (table : Ranges) (c : Char) : Bool :=
  table.holds c.toNat

end Offside.Text
