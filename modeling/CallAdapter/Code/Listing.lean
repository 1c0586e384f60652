import CallAdapter.Code.Decode

/-!
# Listings

A listing shows the instructions of a body one to a line.
-/

namespace CallAdapter

structure ListingLine where
  offset : Nat
  mnemonic : String
  operand : Option String
deriving DecidableEq, Repr

def Placed.line {κ : Type} [ToString κ] (p : Placed κ) : ListingLine where
  offset := p.offset
  mnemonic := p.instruction.op.mnemonic
  operand := p.instruction.operand.text?

end CallAdapter
