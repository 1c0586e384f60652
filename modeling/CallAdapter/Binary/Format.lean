import CallAdapter.Ratio

/-!
# Binary interchange formats

A word of a binary interchange format is a sign bit, a biased exponent field and a
fraction field. `Format.unpack` reads the number that a word denotes and
`Format.round` is the word nearest to an exact ratio.

Everything that has to round goes through `Format.round`: reading a decimal numeral,
turning an integer into a floating-point word, and narrowing from one format to another.
The arithmetic is exact, so no step rounds twice.
-/

namespace CallAdapter.Binary

/-- A binary interchange format, given by the widths of its two fields. -/
structure Format where
  /-- Number of bits of the biased exponent field. -/
  exponentBits : Nat
  /-- Number of bits of the fraction field. -/
  fractionBits : Nat
deriving DecidableEq, Repr

/-- The 32-bit format. -/
def single : Format := ⟨8, 23⟩

def double : Format := ⟨11, 52⟩

/-- What a word denotes: `± significand · 2 ^ exponent`, an infinity, or no number. -/
inductive Datum where
  | finite (negative : Bool) (significand : Nat) (exponent : Int)
  | infinite (negative : Bool)
  | nan (negative : Bool)
deriving DecidableEq, Repr

namespace Format

/-! ### Fields and distinguished words -/

/-- The number of fractions, and the significand bit above the fraction. -/
def leadingBit (f : Format) : Nat := Nat.pow 2 f.fractionBits

/-- The greatest exponent field. -/
def topField (f : Format) : Nat := Nat.pow 2 f.exponentBits - 1

/-- The sign bit alone. -/
def signWord (f : Format) : Nat := (f.topField + 1) * f.leadingBit

/-- Positive infinity: a full exponent field and an empty fraction. -/
def infinityWord (f : Format) : Nat := f.topField * f.leadingBit

/-- The positive quiet word that denotes no number. -/
def quietWord (f : Format) : Nat := f.infinityWord + f.leadingBit / 2

/-- The exponent of the last significand bit of the least positive word. -/
def leastExponent (f : Format) : Int :=
  1 - (f.topField / 2 : Nat) - f.fractionBits

/-- `w` with the sign bit set when `negative`. -/
def withSign (f : Format) (negative : Bool) (w : Nat) : Nat :=
  if negative then f.signWord + w else w

/-! ### Reading and rounding -/

/-- The number that a word denotes. -/
def unpack (f : Format) (w : Nat) : Datum :=
  let negative := w / f.signWord % 2 == 1
  let field := w / f.leadingBit % (f.topField + 1)
  let fraction := w % f.leadingBit
  if field == f.topField then
    if fraction == 0 then .infinite negative else .nan negative
  else if field == 0 then .finite negative fraction f.leastExponent
  else .finite negative (f.leadingBit + fraction) (f.leastExponent + (field - 1 : Nat))

/-- The word of a magnitude, rounded to nearest with ties to even.

With `q` the exponent of the last significand bit and `m` the rounded significand, the
word is `(q - leastExponent) · leadingBit + m`: the leading bit of `m` carries into the
exponent field, whether it was there before rounding or arises from it. A magnitude beyond
the largest finite word becomes infinity. -/
def roundMagnitude (f : Format) (r : Ratio) : Nat :=
  if r.num == 0 then 0
  else
    let q := max f.leastExponent (r.floorLog2 - f.fractionBits)
    let m := (r.scale 2 (-q)).nearest
    min ((q - f.leastExponent).toNat * f.leadingBit + m) f.infinityWord

/-- The word nearest to a ratio with a sign; zero keeps the sign. -/
def round (f : Format) (negative : Bool) (r : Ratio) : Nat :=
  f.withSign negative (f.roundMagnitude r)

def ofInt (f : Format) (z : Int) : Nat := f.round (z < 0) (.ofNat z.natAbs)

/-- The word of `g` nearest to a word of `f`. What is no number stays none and keeps its
sign. -/
def narrow (f g : Format) (w : Nat) : Nat :=
  match f.unpack w with
  | .finite negative m q => g.round negative ((Ratio.ofNat m).scale 2 q)
  | .infinite negative => g.withSign negative g.infinityWord
  | .nan negative => g.withSign negative g.quietWord

def toInt? (f : Format) (w : Nat) : Option Int :=
  match f.unpack w with
  | .finite negative m q =>
    let n := ((Ratio.ofNat m).scale 2 q).nearest
    some (if negative then -(n : Int) else n)
  | _ => none

def isNaN (f : Format) (w : Nat) : Bool :=
  match f.unpack w with
  | .nan _ => true
  | _ => false

/-- Whether the word is one of the two zeros. -/
def isZero (f : Format) (w : Nat) : Bool := w % f.signWord == 0

/-- Numerical equality of words: the two zeros are equal, and what is no number equals
nothing. -/
def equal (f : Format) (v w : Nat) : Bool :=
  !f.isNaN v && !f.isNaN w && (v == w || (f.isZero v && f.isZero w))

end Format

end CallAdapter.Binary
