/-!
# Sets of code points

A set is kept as its boundaries in ascending order: the code points where membership changes, the
first one where the set begins. A code point is in the set when the number of boundaries at or below
it is odd, and a binary search finds that number.
-/

namespace Abacus.Text

structure CodePoints where
  bounds : Array Nat

namespace CodePoints

/-- The number of boundaries at or below `x`, looked for between the indices `lo` and `hi`. -/
def rank (s : CodePoints) (x lo hi : Nat) : Nat :=
  if lo < hi then
    let mid := (lo + hi) / 2
    if s.bounds.getD mid 0 ≤ x then s.rank x (mid + 1) hi else s.rank x lo mid
  else lo
termination_by hi - lo

def contains (s : CodePoints) (c : Char) : Bool :=
  s.rank c.toNat 0 s.bounds.size % 2 == 1

end CodePoints

end Abacus.Text
