import CallAdapter.Code.Outline
import CallAdapter.ZeroValue

/-!
# The store

What procedures remember from one call to the next. Resolvers hand out zero values and keep
each one that they have constructed; a procedure's body is decoded once, and its instructions
are kept in a cell unless there was an error; and an event is logged whenever one of these
things happens for the first time or a procedure has been assembled.

Tasks that may fail run over the store. What a task has stored stays stored if it fails.
-/

namespace CallAdapter

abbrev ResolverId := Nat

abbrev ProcedureId := Nat

inductive Event where
  /-- A procedure has been assembled. -/
  | assembled (procedure target : String) (params codeLength locals : Nat)
  /-- The body of a procedure has been decoded. -/
  | decoded (procedure : ProcedureId) (bytes instructions : Nat)
  /-- A resolver is about to construct the zero value of a type. -/
  | constructing (resolver : ResolverId) (type : ValueType)
deriving DecidableEq, Repr

/-! ### Zero values kept by a resolver -/

structure ZeroEntry where
  type : ValueType
  value : Value
  value_eq : value = type.initial

/-- The zero values that a resolver has constructed so far, and how many times it has
constructed one. -/
structure ZeroCache where
  entries : List ZeroEntry
  constructions : Nat

namespace ZeroCache

def empty : ZeroCache := ⟨[], 0⟩

instance : Inhabited ZeroCache := ⟨empty⟩

def size (c : ZeroCache) : Nat := c.entries.length

def find? (c : ZeroCache) (t : ValueType) : Option ZeroEntry := c.entries.find? (·.type == t)

def construct (c : ZeroCache) (t : ValueType) : ZeroCache :=
  ⟨c.entries ++ [⟨t, t.initial, rfl⟩], c.constructions + 1⟩

end ZeroCache

/-! ### Decoded bodies -/

/-- The instructions of a procedure's body. They are kept for its outline, so that they can be
filled in with whatever stands for the callees. -/
structure DecodeCell where
  procedure : ProcedureId
  outline : Outline
  code : List (Placed (Fin outline.callees))
  decode_eq : outline.decode = .ok code

/-- The cell of a procedure whose body has the given outline, for what decoding it gives. -/
def DecodeCell.ofDecoded (procedure : ProcedureId) (outline : Outline) :
    (decoded : Except RunError (List (Placed (Fin outline.callees)))) →
    outline.decode = decoded → Except RunError DecodeCell
  | .ok code, h => .ok ⟨procedure, outline, code, h⟩
  | .error e, _ => .error e

/-- What the cell holds for a body with the same outline. -/
def DecodeCell.held {κ : Type} (cell : DecodeCell) (b : Body κ) (h : cell.outline = b.outline) :
    List (Placed κ) :=
  cell.code.map (Placed.map fun row => b.callee (row.cast (congrArg Outline.callees h)))

/-- The instructions of a body, from the cell of its procedure. The cell is filled from that body,
so that it has its outline: see `Store.Records.outline_eq`. -/
def DecodeCell.instructions {κ : Type} (cell : DecodeCell) (b : Body κ) :
    Except RunError (List (Placed κ)) :=
  if h : cell.outline = b.outline then .ok (cell.held b h)
  -- Procedures that share an identity share a cell. Nothing can be said about its code then.
  else b.decode

/-! ### The store -/

structure Store where
  /-- The caches of the resolvers that have constructed a value. -/
  caches : List (ResolverId × ZeroCache)
  /-- The cells of the procedures whose body has been decoded. -/
  cells : List DecodeCell
  /-- The log, the latest event first. -/
  events : List Event

namespace Store

def empty : Store := ⟨[], [], []⟩

instance : Inhabited Store := ⟨empty⟩

def cache (s : Store) (r : ResolverId) : ZeroCache := (s.caches.lookup r).getD .empty

def setCache (s : Store) (r : ResolverId) (c : ZeroCache) : Store :=
  { s with caches := (r, c) :: s.caches.filter (·.1 != r) }

def log (s : Store) (e : Event) : Store := { s with events := e :: s.events }

/-- The zero value of a type, from a resolver. Reference types have none. A value is
constructed once and then kept. -/
def zero? (s : Store) (r : ResolverId) (t : ValueType) : Option Value × Store :=
  if t.isValueType then
    match (s.cache r).find? t with
    | some entry => (some entry.value, s)
    | none =>
      (some t.initial, (s.log (.constructing r t)).setCache r ((s.cache r).construct t))
  else (none, s)

def cell? (s : Store) (id : ProcedureId) : Option DecodeCell := s.cells.find? (·.procedure == id)

/-- The store with one more cell, which is logged. -/
def addCell (s : Store) (cell : DecodeCell) : Store :=
  { s.log (.decoded cell.procedure cell.outline.code.length cell.code.length) with
    cells := cell :: s.cells }

/-- The cell of a procedure with the given outline. If it is empty the outline is decoded, which
fills the cell unless there is an error. -/
def fillCell (s : Store) (id : ProcedureId) (o : Outline) : Except RunError DecodeCell × Store :=
  match s.cell? id with
  | some cell => (.ok cell, s)
  | none =>
    match DecodeCell.ofDecoded id o o.decode rfl with
    | .ok cell => (.ok cell, s.addCell cell)
    | .error e => (.error e, s)

end Store

/-! ### Tasks -/

/-- A computation over the store that may fail with an `ε`. -/
abbrev Task (ε α : Type) := ExceptT ε (StateM Store) α

abbrev Run (α : Type) := Task RunError α

abbrev Build (α : Type) := Task BuildError α

namespace Task

variable {ε α : Type}

def ofExcept (x : Except ε α) : Task ε α := ExceptT.mk (pure x)

def update (f : Store → Store) : Task ε Unit := ExceptT.lift (modify f)

def cell (id : ProcedureId) (o : Outline) : Run DecodeCell :=
  ExceptT.mk (modifyGet (Store.fillCell · id o))

def decode {κ : Type} (id : ProcedureId) (b : Body κ) : Run (List (Placed κ)) := do
  let cell ← cell id b.outline
  ofExcept (cell.instructions b)

def zero? (r : ResolverId) (t : ValueType) : Task ε (Option Value) :=
  ExceptT.lift (modifyGet (Store.zero? · r t))

def initial (r : ResolverId) (t : ValueType) : Task ε Value := do
  return (← zero? r t).getD .null

/-- The outcome of a computation on a store, and the store afterwards. -/
def runOn (x : Task ε α) (s : Store) : Except ε α × Store := (ExceptT.run x).run s

end Task

end CallAdapter
