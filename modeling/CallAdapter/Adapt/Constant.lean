import CallAdapter.Procedure.Basic

/-!
# Loading constants

`loadConstant` gives the instructions that push a value for a parameter of a given type. An
absent value needs a local slot of its own, which is set to its zero value and loaded. For a
nullable parameter the inner value is pushed and then wrapped.

Local slots are asked for one after the other, from whoever writes code for a body. A slot that
has been asked for is not given back, also if the code cannot be written in the end.

`Draft.load` puts the instructions at the end of a draft. If a constant cannot be loaded, the
draft has no more instructions than before, and loading can go on with the next one.
-/

namespace CallAdapter

/-- The instruction that pushes a value, for the values that code can hold. -/
def Value.literal? {κ : Type} : Value → Option (Instruction κ)
  | .bool b => some (.bare (if b then .ldcI41 else .ldcI40))
  | .u8 n => some ⟨.ldcI4S, .byte n⟩
  | .i16 n => some ⟨.ldcI4, .int32 n.toInt32⟩
  | .i32 n => some ⟨.ldcI4, .int32 n⟩
  | .i64 n => some ⟨.ldcI8, .int64 n⟩
  | .f32 x => some ⟨.ldcR4, .float32 x⟩
  | .f64 x => some ⟨.ldcR8, .float64 x⟩
  | .str s => some ⟨.ldstr, .string s⟩
  | _ => none

/-- The instruction that pushes a value which has to be an instance of a type. -/
def loadLiteral {κ : Type} (v : Value) (t : ValueType) : Except BuildError (Instruction κ) :=
  if v.isInstance t then
    match v.literal? with
    | some i => .ok i
    | none => .error (.unsupportedType t)
  else .error (.valueMismatch (v.text ++ " of type " ++ v.typeName) t)

/-- A computation that writes code and asks for local slots on its way. -/
abbrev Loading (α : Type) := ExceptT BuildError (StateM Locals) α

namespace Loading

variable {α : Type}

def ofExcept (x : Except BuildError α) : Loading α := ExceptT.mk (pure x)

def slot (t : ValueType) : Loading UInt8 := do
  let (index, locals) ← ofExcept ((← get).add t)
  set locals
  return index

/-- The outcome of a computation after the slots `locals` have been asked for, and the slots
asked for since the beginning. -/
def runOn (x : Loading α) (locals : Locals) : Except BuildError α × Locals :=
  (ExceptT.run x).run locals

end Loading

/-- The instructions that push the initial value of a type, through a local slot of its
own. -/
def loadInitial {κ : Type} (t : ValueType) : Loading (List (Instruction κ)) := do
  let index ← Loading.slot t
  let address ← Loading.ofExcept (Instruction.indexed .ldlocaS index)
  let load ← Loading.ofExcept (Instruction.indexed .ldlocS index)
  return [address, ⟨.initobj, .type t⟩, load]

/-- The instructions that push a value for a parameter of the given type. -/
def writeConstant (v : Option Value) (t : ValueType) : Loading (List (Instruction Callee)) :=
  if t.isSimple then
    match v.filter fun v => !v.isAbsent with
    | none => loadInitial t
    | some v =>
      match t.underlying? with
      | none => return [← Loading.ofExcept (loadLiteral v t)]
      | some u =>
        return [← Loading.ofExcept (loadLiteral v.unwrap u), ⟨.newobj, .method (.wrapper u)⟩]
  else throw (.unsupportedType t)

/-- The instructions that push a value for a parameter of the given type, and the local slots
asked for so far. -/
def loadConstant (v : Option Value) (t : ValueType) (locals : Locals) :
    Except BuildError (List (Instruction Callee) × Locals) :=
  match (writeConstant v t).runOn locals with
  | (.ok code, locals) => .ok (code, locals)
  | (.error e, _) => .error e

namespace Draft

/-- Puts the instructions that push a value at the end of a draft: the instructions, and the
draft with them. -/
def load (d : Draft Callee) (v : Option Value) (t : ValueType) :
    Except BuildError (List (Instruction Callee)) × Draft Callee :=
  match (writeConstant v t).runOn d.locals with
  | (.ok code, locals) => (.ok code, ⟨d.code ++ code, locals⟩)
  | (.error e, locals) => (.error e, ⟨d.code, locals⟩)

/-- Loads values one after the other, passing over those that cannot be loaded. -/
def loadEach (d : Draft Callee) : List (Option Value × ValueType) →
    List (Except BuildError (List (Instruction Callee))) × Draft Callee
  | [] => ([], d)
  | (v, t) :: rest =>
    let (result, d) := d.load v t
    let (results, d) := d.loadEach rest
    (result :: results, d)

end Draft

end CallAdapter
