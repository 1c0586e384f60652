import CallAdapter.Code.Decode

/-!
# Outlines

What can be read from a body does not depend on what its callees are, only on their rows. The
outline of a body is what is left of it when the callees are known by their rows alone. Two
outlines can be compared, and an outline is decoded like a body.
-/

namespace CallAdapter

/-- The code of a body with what it refers to, the callees by their number. -/
structure Outline where
  code : List UInt8
  strings : List String
  /-- The number of callees. -/
  callees : Nat
  types : List ValueType
deriving DecidableEq, Repr

def Outline.tables (o : Outline) : Tables (Fin o.callees) :=
  ⟨o.strings, List.finRange o.callees, o.types⟩

def Outline.decode (o : Outline) : Except RunError (List (Placed (Fin o.callees))) :=
  o.tables.decode 0 o.code

variable {κ : Type}

namespace Body

def outline (b : Body κ) : Outline where
  code := b.code
  strings := b.tables.strings
  callees := b.tables.methods.length
  types := b.tables.types

def callee (b : Body κ) (row : Fin b.outline.callees) : κ := b.tables.methods.get row

end Body

end CallAdapter
