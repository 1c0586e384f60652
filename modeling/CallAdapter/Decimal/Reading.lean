import CallAdapter.Binary.Word
import CallAdapter.Decimal.Shortest
import CallAdapter.Text.Numeral

/-!
# Reading floating-point numerals

A numeral is an optional sign followed by a decimal or by a name. A decimal is a run of
digits with at most one point in it and at least one digit, and then possibly an exponent;
the names are `inf`, `infinity` and `nan`, in any case. A decimal is read exactly and then
rounded once.
-/

namespace CallAdapter.Decimal

open Binary Text

/-- The least exponent that is taken to be out of reach: once the digits of an exponent
have passed it, the digits that follow do not count. -/
def exponentCap : Nat := 0x10000

/-- The exponent that a run of digits denotes, up to `exponentCap`. -/
def capExponent (ds : List Char) : Nat :=
  ds.foldl (fun e d => if e < exponentCap then 10 * e + (d.toNat - '0'.toNat) else e) 0

/-- The exponent at the end of a decimal: nothing, or the letter `e` in either case, a sign
and at least one digit. -/
def readExponent? : List Char → Option Int
  | [] => some 0
  | c :: cs =>
    let (negative, ds) := splitSign cs
    if (c == 'e' || c == 'E') && !ds.isEmpty && ds.all Char.isDigit then
      some (if negative then -(capExponent ds : Int) else capExponent ds)
    else none

/-- The decimal that an unsigned numeral denotes. -/
def read? (cs : List Char) : Option Decimal :=
  let (whole, rest) := cs.span Char.isDigit
  let (fraction, rest) :=
    match rest with
    | '.' :: rest => rest.span Char.isDigit
    | rest => ([], rest)
  let digits := whole ++ fraction
  if digits.isEmpty then none
  else (readExponent? rest).map fun e => ⟨Nat.ofDigitChars 10 digits 0, e - fraction.length⟩

def toWord (f : Format) (negative : Bool) (x : Decimal) : Nat :=
  f.round negative ((Ratio.ofNat x.digits).scale 10 x.exponent)

/-- The magnitude of a named numeral. -/
def readName? (f : Format) (cs : List Char) : Option Nat :=
  let name := String.ofList (cs.map Char.toLower)
  if name == "inf" || name == "infinity" then some f.infinityWord
  else if name == "nan" then some f.quietWord
  else none

def readWord? (f : Format) (cs : List Char) : Option Nat :=
  let (negative, cs) := splitSign cs
  match read? cs with
  | some x => some (x.toWord f negative)
  | none => (readName? f cs).map (f.withSign negative)

end CallAdapter.Decimal

namespace CallAdapter.Binary

def Double.read? (cs : List Char) : Option Double :=
  (Decimal.readWord? double cs).map .ofWord

end CallAdapter.Binary
