import CallAdapter.Binary.Word
import CallAdapter.Decimal.Layout

/-!
# Texts of floating-point words

A word is written as the shortest decimal that rounds to it, laid out by a `Layout`. What is
no number is written `NaN`, without a sign.
-/

namespace CallAdapter

def Layout.word (l : Layout) (f : Binary.Format) (w : Nat) : String :=
  let signed (negative : Bool) (s : String) : String := if negative then "-" ++ s else s
  match f.unpack w with
  | .nan _ => "NaN"
  | .infinite negative => signed negative "inf"
  | .finite negative 0 _ => signed negative l.zero
  | .finite negative m q => signed negative (l.text (Decimal.shortest f m q))

namespace Binary

def Single.text (l : Layout) (x : Single) : String := l.word single x.word

def Double.text (l : Layout) (x : Double) : String := l.word double x.word

end Binary

end CallAdapter
