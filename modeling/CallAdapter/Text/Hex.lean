/-!
# Hexadecimal numerals

Lower-case hexadecimal with a least number of digits.
-/

namespace CallAdapter.Text

/-- `n` in hexadecimal, padded with zeros to at least `width` digits. -/
def hex (width n : Nat) : String :=
  let ds := Nat.toDigits 16 n
  String.ofList (List.replicate (width - ds.length) '0' ++ ds)

end CallAdapter.Text
