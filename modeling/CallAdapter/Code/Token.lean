/-!
# Tokens

A token names a row of one of a body's tables: the top byte says which table, and the other
three bytes hold the row counted from one. A token whose three lower bytes are zero names no
row.
-/

namespace CallAdapter

namespace Token

/-- The table byte of strings. -/
def stringTable : UInt8 := 0x70

def methodTable : UInt8 := 0x0A

def typeTable : UInt8 := 0x1B

/-- One more than the greatest number that the three lower bytes hold. -/
def rowLimit : Nat := 0x1000000

/-- The token of a row, counted from zero. Rows are counted modulo `rowLimit`. -/
def make (table : UInt8) (row : Nat) : UInt32 :=
  UInt32.ofNat (table.toNat * rowLimit + (row + 1) % rowLimit)

def table (token : UInt32) : UInt8 := UInt8.ofNat (token.toNat / rowLimit)

/-- The row of a token, counted from zero. -/
def row? (token : UInt32) : Option Nat :=
  match token.toNat % rowLimit with
  | 0 => none
  | row + 1 => some row

/-- The entry of `entries` that a token of the given table names. -/
def find? {α : Type} (tableByte : UInt8) (entries : List α) (token : UInt32) : Option α :=
  if table token = tableByte then (row? token).bind (entries[·]?) else none

end Token

end CallAdapter
