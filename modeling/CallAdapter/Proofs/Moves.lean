import CallAdapter.Machine.Frame
import CallAdapter.Proofs.Tasks

/-!
# Instructions by what they do

Many opcodes do the same: five push an argument and eight push a constant. A `Move` is what an
instruction does, whatever the opcode that it is written with. `Frame.perform` carries a move out, and
by `Frame.step_eq_perform` a step of the machine is the move of its instruction. What is said about
all steps is proved by cases on moves.
-/

namespace CallAdapter

open Machine

variable {κ μ : Type}

/-- What an instruction does. -/
inductive Move (κ : Type) where
  | stay
  | loadArgument (index : Nat)
  | loadLocal (index : Nat)
  /-- Pushes a constant or an address. -/
  | push (s : Slot)
  | dup
  | pop
  /-- Stores the initial value of a type through an address. -/
  | init (t : ValueType)
  | call (callee : κ)
  | ret
  /-- The operand does not fit the opcode, whose first byte is given. -/
  | stuck (byte : UInt8)

def Move.map (f : κ → μ) : Move κ → Move μ
  | .stay => .stay
  | .loadArgument index => .loadArgument index
  | .loadLocal index => .loadLocal index
  | .push s => .push s
  | .dup => .dup
  | .pop => .pop
  | .init t => .init t
  | .call callee => .call (f callee)
  | .ret => .ret
  | .stuck byte => .stuck byte

theorem Move.exists_of_map_eq_call {f : κ → μ} {m : Move κ} {callee : μ}
    (h : m.map f = .call callee) : ∃ c, m = .call c ∧ f c = callee := by
  cases m <;> cases h
  exact ⟨_, rfl, rfl⟩

def Instruction.move (i : Instruction κ) : Move κ :=
  match i.op, i.operand with
  | .nop, _ => .stay
  | .ldarg0, _ => .loadArgument 0
  | .ldarg1, _ => .loadArgument 1
  | .ldarg2, _ => .loadArgument 2
  | .ldarg3, _ => .loadArgument 3
  | .ldargS, .byte index => .loadArgument index.toNat
  | .ldargaS, .byte index => .push (.argument index.toNat)
  | .ldloc0, _ => .loadLocal 0
  | .ldloc1, _ => .loadLocal 1
  | .ldloc2, _ => .loadLocal 2
  | .ldloc3, _ => .loadLocal 3
  | .ldlocS, .byte index => .loadLocal index.toNat
  | .ldlocaS, .byte index => .push (.localSlot index.toNat)
  | .ldcI40, _ => .push (.value (.i32 0))
  | .ldcI41, _ => .push (.value (.i32 1))
  | .ldcI4S, .byte b => .push (.value (.i32 b.toInt8.toInt32))
  | .ldcI4, .int32 n => .push (.value (.i32 n))
  | .ldcI8, .int64 n => .push (.value (.i64 n))
  | .ldcR4, .float32 x => .push (.value (.f32 x))
  | .ldcR8, .float64 x => .push (.value (.f64 x))
  | .ldstr, .string s => .push (.value (.str s))
  | .dup, _ => .dup
  | .pop, _ => .pop
  | .initobj, .type t => .init t
  | .call, .method callee | .newobj, .method callee => .call callee
  | .ret, _ => .ret
  | op, _ => .stuck op.firstByte

def Machine.Frame.perform (c : Context) (f : Frame) (offset : Nat) : Move Link → Run Progress
  | .stay => return .next f
  | .loadArgument index => .next <$> Task.ofExcept (f.loadArgument offset index)
  | .loadLocal index => .next <$> Task.ofExcept (f.loadLocal offset index)
  | .push s => return .next (f.push s)
  | .dup => do
    let (s, _) ← Task.ofExcept (f.pop offset)
    return .next (f.push s)
  | .pop => do
    let (_, f) ← Task.ofExcept (f.pop offset)
    return .next f
  | .init t => do
    let (s, f) ← Task.ofExcept (f.pop offset)
    let v ← Task.initial c.resolver t
    .next <$> Task.ofExcept (f.store offset s v)
  | .call callee => .next <$> f.call offset callee
  | .ret => .done <$> Task.ofExcept (f.finish c offset)
  | .stuck byte => throw (.unsupportedOpcode offset byte)

/-- A step carries out the move of its instruction. -/
theorem Machine.Frame.step_eq_perform (c : Context) (f : Frame) (offset : Nat)
    (i : Instruction Link) : f.step c offset i = f.perform c offset i.move := by
  obtain ⟨op, operand⟩ := i
  -- The operand matters for some of the opcodes only.
  cases op <;> first
    | rfl
    | (cases operand <;> rfl)

/-- Another callee changes nothing but the callee. -/
theorem Instruction.move_map (f : κ → μ) (i : Instruction κ) : (i.map f).move = i.move.map f := by
  obtain ⟨op, operand⟩ := i
  cases op <;> first
    | rfl
    | (cases operand <;> rfl)

/-- A call names its callee in the operand. -/
theorem Instruction.operand_of_move {i : Instruction κ} {callee : κ}
    (h : i.move = .call callee) : i.operand = .method callee := by
  unfold Instruction.move at h
  split at h <;> cases h
  all_goals assumption

/-! ### Returns -/

/-- Only a return ends a run. -/
theorem Machine.Frame.move_of_done {c : Context} {f : Frame} {offset : Nat} {m : Move Link} {s : Store}
    {v : Value} (h : ((f.perform c offset m).runOn s).1 = .ok (.done v)) : m = .ret := by
  have hnext (x : Run Frame) : ((Progress.next <$> x).runOn s).1 ≠ .ok (.done v) := by
    intro hx
    obtain ⟨f', -, hf'⟩ := Task.ok_of_map hx
    cases hf'
  cases m with
  | ret => rfl
  | stay | push | stuck => cases h
  | loadArgument | loadLocal | call => exact absurd h (hnext _)
  | dup | pop =>
    obtain ⟨_, -, h⟩ := Task.ok_of_ofExcept_bind h
    cases h
  | init t =>
    obtain ⟨_, -, h⟩ := Task.ok_of_ofExcept_bind h
    obtain ⟨_, _, -, h⟩ := Task.ok_of_bind h
    obtain ⟨f', -, hf'⟩ := Task.ok_of_map h
    cases hf'

/-- A return does not go on. -/
theorem Machine.Frame.not_next_of_ret {c : Context} {f f' : Frame} {offset : Nat} {s : Store} :
    ((f.perform c offset .ret).runOn s).1 ≠ .ok (.next f') := by
  intro h
  obtain ⟨v, -, hv⟩ := Task.ok_of_map h
  cases hv

end CallAdapter
