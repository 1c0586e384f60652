import CallAdapter.Binary.Format

/-!
# Shortest decimals

`shortest f m q` is the decimal with the fewest digits that rounds to the positive number
`m · 2 ^ q` of the format `f`; among the decimals with that many digits it is the nearest.

The numbers that round to `m · 2 ^ q` form an interval around it. For a decimal exponent
`e` the decimals `d · 10 ^ e` form a grid, and a coarser grid means fewer digits. If any
point of a grid lies in the interval, one of the two neighbours of `m · 2 ^ q` on that grid
does. So the search walks from a grid too coarse to have a point in the interval to finer
ones and stops at the first with a neighbour inside.
-/

namespace CallAdapter

/-- The decimal `digits · 10 ^ exponent`. -/
structure Decimal where
  digits : Nat
  exponent : Int
deriving DecidableEq, Repr

namespace Decimal

open Binary (Format)

/-- The numbers that round to one word, in units of a quarter of its last significand bit:
the word itself is at `4 · significand`. -/
structure Interval where
  /-- Lower end. -/
  low : Nat
  /-- The word itself. -/
  mid : Nat
  /-- Upper end. -/
  high : Nat
  /-- Whether the ends round to the word too. -/
  closed : Bool

/-- The interval of `m · 2 ^ q`. Ends are half a unit away, except that below a power of
two the next word is only half as far. A tie goes to the even word, so the ends belong to
an even significand. -/
def interval (f : Format) (m : Nat) (q : Int) : Interval where
  low := 4 * m - if m == f.leadingBit && f.leastExponent < q then 1 else 2
  mid := 4 * m
  high := 4 * m + 2
  closed := m % 2 == 0

/-- The neighbour of the word on the grid of step `10 ^ e` that lies in the interval, the
nearer one if both do, and the upper one if they are equally near. The interval is in units
of `2 ^ u`, so its position `x` is the grid point `d` where `x · num = d · den` for the ratio
of the two steps. -/
def onGrid? (i : Interval) (u e : Int) : Option Decimal :=
  let steps := ((Ratio.ofNat 1).scale 2 u).scale 10 (-e)
  let position (x : Nat) : Nat := x * steps.num
  let point (d : Nat) : Nat := d * steps.den
  let inside (d : Nat) : Bool :=
    if i.closed then position i.low ≤ point d && point d ≤ position i.high
    else position i.low < point d && point d < position i.high
  let below := position i.mid / steps.den
  let above := below + 1
  match inside below, inside above with
  | true, true =>
    if position i.mid - point below < point above - position i.mid then some ⟨below, e⟩
    else some ⟨above, e⟩
  | true, false => some ⟨below, e⟩
  | false, true => some ⟨above, e⟩
  | false, false => none

/-- A decimal exponent whose grid has no positive point below `2 ^ k`. -/
def coarse (k : Int) : Int := k * 30103 / 100000 + 2

/-- The shortest decimal of the positive number `m · 2 ^ q`. Seventeen digits tell any two
words apart, so the search ends well within the grids it looks at. -/
def shortest (f : Format) (m : Nat) (q : Int) : Decimal :=
  let i := interval f m q
  let start := coarse (Nat.log2 m + q + 2)
  ((List.range 24).findSome? fun (k : Nat) => onGrid? i (q - 2) (start - k)).getD ⟨m, 0⟩

end Decimal

end CallAdapter
