import CallAdapter.Binary.Format

/-!
# Floating-point words

`Single` and `Double` are the words of the 32-bit and the 64-bit format. They are kept as
bits, so that a word can be written into a body and read back unchanged; their numerical
reading is `Format.unpack`.
-/

namespace CallAdapter.Binary

structure Single where
  bits : UInt32
deriving DecidableEq, Repr

structure Double where
  bits : UInt64
deriving DecidableEq, Repr

namespace Single

/-- The word with the given bits, which are taken modulo the width. -/
def ofWord (w : Nat) : Single := ⟨UInt32.ofNat w⟩

def word (x : Single) : Nat := x.bits.toNat

def nan : Single := ofWord single.quietWord

def zero : Single := ⟨0⟩

def isNaN (x : Single) : Bool := single.isNaN x.word

def equal (x y : Single) : Bool := single.equal x.word y.word

def toInt? (x : Single) : Option Int := single.toInt? x.word

/-- The same number in the 64-bit format. -/
def toDouble (x : Single) : Double := ⟨UInt64.ofNat (single.narrow double x.word)⟩

end Single

namespace Double

def ofWord (w : Nat) : Double := ⟨UInt64.ofNat w⟩

def word (x : Double) : Nat := x.bits.toNat

def nan : Double := ofWord double.quietWord

def zero : Double := ⟨0⟩

def ofInt (z : Int) : Double := ofWord (double.ofInt z)

def isNaN (x : Double) : Bool := double.isNaN x.word

def isZero (x : Double) : Bool := double.isZero x.word

def equal (x y : Double) : Bool := double.equal x.word y.word

def toInt? (x : Double) : Option Int := double.toInt? x.word

/-- The nearest word of the 32-bit format. -/
def toSingle (x : Double) : Single := .ofWord (double.narrow single x.word)

end Double

end CallAdapter.Binary
