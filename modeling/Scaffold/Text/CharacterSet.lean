/-!
# Sets of characters by their borders

A set of code points is written as the increasing list of the points where membership changes,
starting outside the set. A point is a member when an odd number of borders is at or below it.
-/

namespace Scaffold.Text

/-- The borders of a set of code points, in increasing order. -/
structure CharacterSet where
  borders : List Nat

def CharacterSet.contains (s : CharacterSet) (c : Char) : Bool :=
  (s.borders.takeWhile (· ≤ c.toNat)).length % 2 == 1

end Scaffold.Text
