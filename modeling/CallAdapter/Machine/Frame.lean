import CallAdapter.Code.Decode
import CallAdapter.Signature
import CallAdapter.Store

/-!
# Frames

A frame is the state of a running body: the arguments, the locals, and the evaluation stack,
whose slots hold values or the addresses of arguments and locals. `Frame.step` runs one
instruction and `run` a whole sequence up to its `ret`.

The machine does not know what a callee is. It runs instructions whose callees are `Link`s:
what a call needs to know about them, and the call itself.
-/

namespace CallAdapter.Machine

/-- A callee as the machine sees it. -/
structure Link where
  /-- How the callee is called in messages. -/
  text : String
  /-- The types of its parameters. -/
  params : List ValueType
  /-- The type of its result. -/
  result : ValueType
  /-- Calls it. -/
  call : List Value → Run Value

inductive Slot where
  | value (v : Value)
  /-- The address of an argument. -/
  | argument (index : Nat)
  /-- The address of a local. -/
  | localSlot (index : Nat)
deriving Inhabited, Repr

/-- The value in a slot that holds no address. -/
def Slot.value? : Slot → Option Value
  | .value v => some v
  | _ => none

/-- The state of a running body; the top of the stack comes first. -/
structure Frame where
  args : List Value
  locals : List Value
  stack : List Slot
deriving Inhabited, Repr

structure Context where
  /-- The name of the running procedure. -/
  procedure : String
  /-- The type of its result. -/
  result : ValueType
  /-- Where its zero values come from. -/
  resolver : ResolverId

/-- How an instruction ends: with the next frame, or with the result of the procedure. -/
inductive Progress where
  | next (frame : Frame)
  | done (result : Value)
deriving Inhabited, Repr

namespace Frame

def push (f : Frame) (s : Slot) : Frame := { f with stack := s :: f.stack }

def pushValue (f : Frame) (v : Value) : Frame := f.push (.value v)

def pop (f : Frame) (offset : Nat) : Except RunError (Slot × Frame) :=
  match f.stack with
  | s :: rest => .ok (s, { f with stack := rest })
  | [] => .error (.stackUnderflow offset)

def popValue (f : Frame) (offset : Nat) : Except RunError (Value × Frame) := do
  let (s, f) ← f.pop offset
  match s.value? with
  | some v => return (v, f)
  | none => throw (.badAddress offset)

/-- Takes the values in the top `n` slots off the stack, the top one last. -/
def popValues (f : Frame) (offset n : Nat) : Except RunError (List Value × Frame) :=
  if f.stack.length < n then .error (.stackUnderflow offset)
  else
    match (f.stack.take n).reverse.mapM Slot.value? with
    | some vs => .ok (vs, { f with stack := f.stack.drop n })
    | none => .error (.badAddress offset)

def loadArgument (f : Frame) (offset index : Nat) : Except RunError Frame :=
  match f.args[index]? with
  | some v => .ok (f.pushValue v)
  | none => .error (.badAddress offset)

def loadLocal (f : Frame) (offset index : Nat) : Except RunError Frame :=
  match f.locals[index]? with
  | some v => .ok (f.pushValue v)
  | none => .error (.badAddress offset)

/-- Stores a value at the address in a slot. -/
def store (f : Frame) (offset : Nat) (s : Slot) (v : Value) : Except RunError Frame :=
  match s with
  | .argument index =>
    if index < f.args.length then .ok { f with args := f.args.set index v }
    else .error (.badAddress offset)
  | .localSlot index =>
    if index < f.locals.length then .ok { f with locals := f.locals.set index v }
    else .error (.badAddress offset)
  | .value _ => .error (.badAddress offset)

/-- Calls a callee on the values on top of the stack, each put into the slot of its
parameter, and pushes the result unless the callee has none. -/
def call (f : Frame) (offset : Nat) (callee : Link) : Run Frame := do
  let (vs, f) ← Task.ofExcept (f.popValues offset callee.params.length)
  let args ← Task.ofExcept (fitAll Value.asSlot? callee.text 0 callee.params vs)
  let result ← callee.call args
  return if callee.result = .unit then f else f.pushValue result

/-- Ends the procedure with the value on top of the stack, put into the slot of its result.
A procedure without a result leaves the stack alone. -/
def finish (c : Context) (f : Frame) (offset : Nat) : Except RunError Value :=
  if c.result = .unit then .ok .unit
  else do
    let (v, _) ← f.popValue offset
    match v.asSlot? c.result with
    | some w => return w
    | none => throw (.argumentType c.procedure 0 c.result v.typeName)

/-- Runs one instruction. An operand that does not fit its opcode makes the instruction
unsupported. -/
def step (c : Context) (f : Frame) (offset : Nat) (i : Instruction Link) : Run Progress :=
  match i.op, i.operand with
  | .nop, _ => return .next f
  | .ldarg0, _ => .next <$> Task.ofExcept (f.loadArgument offset 0)
  | .ldarg1, _ => .next <$> Task.ofExcept (f.loadArgument offset 1)
  | .ldarg2, _ => .next <$> Task.ofExcept (f.loadArgument offset 2)
  | .ldarg3, _ => .next <$> Task.ofExcept (f.loadArgument offset 3)
  | .ldargS, .byte index => .next <$> Task.ofExcept (f.loadArgument offset index.toNat)
  | .ldargaS, .byte index => return .next (f.push (.argument index.toNat))
  | .ldloc0, _ => .next <$> Task.ofExcept (f.loadLocal offset 0)
  | .ldloc1, _ => .next <$> Task.ofExcept (f.loadLocal offset 1)
  | .ldloc2, _ => .next <$> Task.ofExcept (f.loadLocal offset 2)
  | .ldloc3, _ => .next <$> Task.ofExcept (f.loadLocal offset 3)
  | .ldlocS, .byte index => .next <$> Task.ofExcept (f.loadLocal offset index.toNat)
  | .ldlocaS, .byte index => return .next (f.push (.localSlot index.toNat))
  | .ldcI40, _ => return .next (f.pushValue (.i32 0))
  | .ldcI41, _ => return .next (f.pushValue (.i32 1))
  | .ldcI4S, .byte b => return .next (f.pushValue (.i32 b.toInt8.toInt32))
  | .ldcI4, .int32 n => return .next (f.pushValue (.i32 n))
  | .ldcI8, .int64 n => return .next (f.pushValue (.i64 n))
  | .ldcR4, .float32 x => return .next (f.pushValue (.f32 x))
  | .ldcR8, .float64 x => return .next (f.pushValue (.f64 x))
  | .ldstr, .string s => return .next (f.pushValue (.str s))
  | .dup, _ => do
    let (s, _) ← Task.ofExcept (f.pop offset)
    return .next (f.push s)
  | .pop, _ => do
    let (_, f) ← Task.ofExcept (f.pop offset)
    return .next f
  | .initobj, .type t => do
    let (s, f) ← Task.ofExcept (f.pop offset)
    let v ← Task.initial c.resolver t
    .next <$> Task.ofExcept (f.store offset s v)
  | .call, .method callee | .newobj, .method callee => .next <$> f.call offset callee
  | .ret, _ => .done <$> Task.ofExcept (f.finish c offset)
  | op, _ => throw (.unsupportedOpcode offset op.firstByte)

end Frame

def steps (c : Context) : List (Placed Link) → Frame → Run Progress
  | [], f => return .next f
  | p :: ps, f => do
    match ← f.step c p.offset p.instruction with
    | .next f => steps c ps f
    | .done v => return .done v

/-- Code in two parts runs the second part in the frame that the first part leaves, unless the
first part has ended the procedure. -/
theorem steps_append (c : Context) (ps qs : List (Placed Link)) (f : Frame) :
    steps c (ps ++ qs) f = (do
      match ← steps c ps f with
      | .next f => steps c qs f
      | .done v => return .done v) := by
  induction ps generalizing f with
  | nil => simp [steps]
  | cons p ps ih =>
    simp only [List.cons_append, steps, bind_assoc]
    congr 1
    funext progress
    cases progress with
    | next f => exact ih f
    | done v => simp

/-- The offset of the last instruction, or zero if there is none. -/
def lastOffset (code : List (Placed Link)) : Nat := (code.getLast?.map Placed.offset).getD 0

/-- Runs instructions in sequence to the result of the procedure. Without a `ret` there is
none, and the error is at the last instruction. -/
def run (c : Context) (code : List (Placed Link)) (f : Frame) : Run Value := do
  match ← steps c code f with
  | .done v => return v
  | .next _ => throw (.missingReturn (lastOffset code))

def execute (c : Context) (code : List (Placed Link)) (locals : List ValueType)
    (args : List Value) : Run Value := do
  let locals ← locals.mapM (Task.initial c.resolver)
  run c code ⟨args, locals, []⟩

end CallAdapter.Machine
