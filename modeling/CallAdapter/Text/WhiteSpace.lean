import CallAdapter.Text.CharRange

/-!
# White space

The Unicode property White_Space, and texts without it at their ends.
-/

namespace CallAdapter.Text

/-- The ranges of White_Space, in increasing order. -/
def whiteSpace : List CharRange :=
  [(0x9, 0xD), (0x20, 0x20), (0x85, 0x85), (0xA0, 0xA0), (0x1680, 0x1680), (0x2000, 0x200A),
    (0x2028, 0x2029), (0x202F, 0x202F), (0x205F, 0x205F), (0x3000, 0x3000)]

def isWhiteSpace (c : Char) : Bool := whiteSpace.any (CharRange.contains · c)

/-- The characters without the white space at either end. -/
def trim (cs : List Char) : List Char :=
  ((cs.dropWhile isWhiteSpace).reverse.dropWhile isWhiteSpace).reverse

end CallAdapter.Text
