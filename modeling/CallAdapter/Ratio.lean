/-!
# Exact ratios

Ratios of naturals, scaled by powers of a base without any rounding. `Ratio.nearest` is the
one place where a ratio is rounded to an integer.
-/

namespace CallAdapter

/-- The ratio `num / den`, for a positive `den`. -/
structure Ratio where
  num : Nat
  den : Nat
deriving DecidableEq, Repr

namespace Ratio

def ofNat (n : Nat) : Ratio := ⟨n, 1⟩

/-- The ratio times `base ^ e`. -/
def scale (r : Ratio) (base : Nat) (e : Int) : Ratio :=
  ⟨r.num * Nat.pow base e.toNat, r.den * Nat.pow base (-e).toNat⟩

/-- The nearest natural, a half going to the even neighbour. -/
def nearest (r : Ratio) : Nat :=
  let q := r.num / r.den
  let twice := 2 * (r.num % r.den)
  if twice < r.den then q
  else if r.den < twice then q + 1
  else q + q % 2

/-- The greatest `k` with `2 ^ k ≤ num / den`, for a positive ratio. -/
def floorLog2 (r : Ratio) : Int :=
  let k : Int := (Nat.log2 r.num : Int) - (Nat.log2 r.den : Int)
  let scaled := r.scale 2 (-k)
  if scaled.den ≤ scaled.num then k else k - 1

end Ratio

end CallAdapter
