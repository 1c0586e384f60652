import CallAdapter.Code.Bytes
import CallAdapter.Code.Instruction
import CallAdapter.Code.Token

/-!
# Bodies

A body is code as bytes, the types of its locals, and the tables that the tokens in the code
point into. `Draft.finish` encodes the instructions collected in a draft: it measures all of
them first and then writes them one after the other, giving each new string, callee or type a
row at the end of its table.

While tables are being filled, the rows of strings and types are remembered beside them. The row
of a callee is looked for in the table itself.
-/

namespace CallAdapter

/-- The strings, callees and types that a body refers to. -/
structure Tables (κ : Type) where
  strings : List String
  methods : List κ
  types : List ValueType
deriving Inhabited, Repr

structure Body (κ : Type) where
  code : List UInt8
  locals : List ValueType
  tables : Tables κ
deriving Inhabited, Repr

/-- The local slots asked for so far, in order. -/
structure Locals where
  types : List ValueType
deriving Inhabited, Repr

/-- The instructions and local slots of a body that is being put together. -/
structure Draft (κ : Type) where
  code : List (Instruction κ)
  locals : Locals
deriving Inhabited, Repr

variable {κ μ : Type}

/-! ### Locals -/

namespace Locals

def empty : Locals := ⟨[]⟩

def size (l : Locals) : Nat := l.types.length

def add (l : Locals) (t : ValueType) : Except BuildError (UInt8 × Locals) :=
  (shortIndex .localSlot l.size).map fun index => (index, ⟨l.types ++ [t]⟩)

def addAll (l : Locals) : List ValueType → Except BuildError Locals
  | [] => .ok l
  | t :: ts => (l.add t).bind fun (_, l) => l.addAll ts

end Locals

/-! ### Tables -/

namespace Tables

def map (f : κ → μ) (t : Tables κ) : Tables μ := ⟨t.strings, t.methods.map f, t.types⟩

/-- The string that a token names. -/
def string? (t : Tables κ) : UInt32 → Option String := Token.find? Token.stringTable t.strings

def method? (t : Tables κ) : UInt32 → Option κ := Token.find? Token.methodTable t.methods

def type? (t : Tables κ) : UInt32 → Option ValueType := Token.find? Token.typeTable t.types

def tokenBytes (table : UInt8) (row : Nat) : List UInt8 :=
  LittleEndian.write 4 (Token.make table row).toNat

end Tables

/-! ### Tables that are being filled -/

/-- The row of an entry in a table, which gets a new row at its end if it has none. -/
def rowOf {α : Type} [BEq α] (entries : List α) (a : α) : Nat × List α :=
  match entries.findIdx? (· == a) with
  | some row => (row, entries)
  | none => (entries.length, entries ++ [a])

/-- The entries of a table in order, and beside them the row of each entry. -/
structure IndexedTable (α : Type) where
  entries : List α
  rows : List (α × Nat)
deriving Inhabited, Repr

namespace IndexedTable

variable {α : Type}

def empty : IndexedTable α := ⟨[], []⟩

/-- The row of an entry, which gets a new row at the end of the table if none is remembered. -/
def rowOf [BEq α] (t : IndexedTable α) (a : α) : Nat × IndexedTable α :=
  match t.rows.lookup a with
  | some row => (row, t)
  | none => (t.entries.length, ⟨t.entries ++ [a], (a, t.entries.length) :: t.rows⟩)

end IndexedTable

structure TableBuilder (κ : Type) where
  strings : IndexedTable String
  methods : List κ
  types : IndexedTable ValueType
deriving Inhabited, Repr

namespace TableBuilder

def empty : TableBuilder κ := ⟨.empty, [], .empty⟩

def tables (t : TableBuilder κ) : Tables κ := ⟨t.strings.entries, t.methods, t.types.entries⟩

/-- The bytes of an operand, and the tables with a row for what it refers to. -/
def write [BEq κ] (t : TableBuilder κ) : Operand κ → List UInt8 × TableBuilder κ
  | .none => ([], t)
  | .byte b => ([b], t)
  | .int32 n => (LittleEndian.write 4 n.toUInt32.toNat, t)
  | .int64 n => (LittleEndian.write 8 n.toUInt64.toNat, t)
  | .float32 x => (LittleEndian.write 4 x.word, t)
  | .float64 x => (LittleEndian.write 8 x.word, t)
  | .string s =>
    let (row, strings) := t.strings.rowOf s
    (Tables.tokenBytes Token.stringTable row, { t with strings })
  | .method callee =>
    let (row, methods) := rowOf t.methods callee
    (Tables.tokenBytes Token.methodTable row, { t with methods })
  | .type type =>
    let (row, types) := t.types.rowOf type
    (Tables.tokenBytes Token.typeTable row, { t with types })

def encode [BEq κ] (t : TableBuilder κ) (i : Instruction κ) :
    Except BuildError (List UInt8 × TableBuilder κ) :=
  i.check.map fun () =>
    let (operand, t) := t.write i.operand
    (i.op.encoding ++ operand, t)

def encodeAll [BEq κ] (t : TableBuilder κ) :
    List (Instruction κ) → Except BuildError (List UInt8 × TableBuilder κ)
  | [] => .ok ([], t)
  | i :: is => do
    let (bytes, t) ← t.encode i
    let (rest, t) ← t.encodeAll is
    return (bytes ++ rest, t)

end TableBuilder

/-! ### Drafts -/

/-- The number of bytes of instructions in code. -/
def measure : List (Instruction κ) → Except BuildError Nat
  | [] => .ok 0
  | i :: is => do
    let n ← i.length
    let rest ← measure is
    return n + rest

def Draft.empty : Draft κ := ⟨[], .empty⟩

def Body.map (f : κ → μ) (b : Body κ) : Body μ := ⟨b.code, b.locals, b.tables.map f⟩

/-- The body of a draft. The locals are declared in the order in which they were asked
for. -/
def Draft.finish [BEq κ] (d : Draft κ) : Except BuildError (Body κ) := do
  let _ ← measure d.code
  let (code, built) ← TableBuilder.empty.encodeAll d.code
  return ⟨code, d.locals.types, built.tables⟩

end CallAdapter
