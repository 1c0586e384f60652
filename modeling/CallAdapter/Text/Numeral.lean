/-!
# Integer numerals

Reading of integers: an optional sign, then one or more decimal digits and nothing else.
Their text is core's `toString`, which `readInt?` reads back.
-/

namespace CallAdapter.Text

/-- The sign of a numeral, and what follows it. -/
def splitSign : List Char → Bool × List Char
  | '-' :: cs => (true, cs)
  | '+' :: cs => (false, cs)
  | cs => (false, cs)

def readDigits? (cs : List Char) : Option Nat :=
  if !cs.isEmpty && cs.all Char.isDigit then some (Nat.ofDigitChars 10 cs 0) else none

def readInt? (cs : List Char) : Option Int :=
  let (negative, digits) := splitSign cs
  (readDigits? digits).map fun n => if negative then -(n : Int) else n

end CallAdapter.Text
