/-!
# Ranges of characters

A property of characters is given as a list of ranges of code points.
-/

namespace CallAdapter.Text

/-- The code points from the first to the second, both included. -/
abbrev CharRange := Nat × Nat

def CharRange.contains (r : CharRange) (c : Char) : Bool := r.1 ≤ c.toNat && c.toNat ≤ r.2

end CallAdapter.Text
