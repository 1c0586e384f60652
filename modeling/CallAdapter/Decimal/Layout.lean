import CallAdapter.Decimal.Shortest

/-!
# Layouts of decimals

A decimal is written either positionally (`1250`, `0.004`) or with an exponent (`1.5e-7`).
A `Layout` says which exponents are written positionally and whether a whole number carries
a fraction `.0`.
-/

namespace CallAdapter

/-- How decimals are laid out. -/
structure Layout where
  /-- Whether a number whose leading digit has this decimal exponent is written
  positionally. -/
  isPositional : Int → Bool
  /-- Whether a whole number written positionally ends in `.0`. -/
  keepsPoint : Bool

namespace Layout

def plain : Layout where
  isPositional _ := true
  keepsPoint := false

/-- Positionally from `10 ^ -4` up to below `10 ^ 16`, and whole numbers with a fraction. -/
def pointed : Layout where
  isPositional e := -4 ≤ e && e < 16
  keepsPoint := true

def zero (l : Layout) : String := if l.keepsPoint then "0.0" else "0"

/-- The digits `ds` with the last one at the decimal exponent `e`, written positionally. -/
def positional (l : Layout) (ds : List Char) (e : Int) : List Char :=
  if 0 ≤ e then
    ds ++ List.replicate e.toNat '0' ++ if l.keepsPoint then ['.', '0'] else []
  else
    let places := (-e).toNat
    let ds := List.replicate (places + 1 - ds.length) '0' ++ ds
    ds.take (ds.length - places) ++ '.' :: ds.drop (ds.length - places)

/-- The digits `ds` with one digit before the point, and the exponent `e` of that digit. -/
def scientific (ds : List Char) (e : Int) : List Char :=
  let fraction := ds.drop 1
  ds.take 1 ++ (if fraction.isEmpty then [] else '.' :: fraction) ++ 'e' :: (toString e).toList

/-- The text of a positive decimal. Trailing zeros of its digits are not significant. -/
def text (l : Layout) (x : Decimal) : String :=
  let ds := Nat.toDigits 10 x.digits
  let significant := (ds.reverse.dropWhile (· == '0')).reverse
  let dropped := ds.length - significant.length
  let leading := x.exponent + (ds.length - 1 : Nat)
  String.ofList <|
    if l.isPositional leading then l.positional significant (x.exponent + dropped)
    else scientific significant leading

end Layout

end CallAdapter
