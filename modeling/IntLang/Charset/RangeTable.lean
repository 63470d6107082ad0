/-! Sets of code points as ascending lists of ranges, both ends included. -/
namespace IntLang.Charset

abbrev RangeTable := List (Nat × Nat)

/-- The ranges ascend, so the search ends at the first one that starts above the code. -/
def RangeTable.contains : RangeTable → Nat → Bool
  | [], _ => false
  | (low, high) :: rest, n =>
    if n < low then false else if n ≤ high then true else RangeTable.contains rest n

/-- Membership of a code that may be negative. -/
def RangeTable.has (t : RangeTable) (code : Int) : Bool := decide (0 ≤ code) && t.contains code.toNat

end IntLang.Charset
