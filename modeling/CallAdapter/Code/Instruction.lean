import CallAdapter.Error
import CallAdapter.Decimal.Float
import CallAdapter.Text.Quoted

/-!
# Instructions

An instruction is an opcode with an operand. The operand need not be of the kind that the
opcode asks for; `Instruction.check` tells. What `call` and `newobj` refer to is left open:
instructions are over an arbitrary type `κ` of callees.
-/

namespace CallAdapter

open Binary (Single Double)

/-- An operand, with callees of type `κ`. -/
inductive Operand (κ : Type) where
  | none
  | byte (b : UInt8)
  | int32 (n : Int32)
  | int64 (n : Int64)
  | float32 (x : Single)
  | float64 (x : Double)
  | string (s : String)
  | method (callee : κ)
  | type (t : ValueType)
deriving Inhabited, Repr

namespace Operand

variable {κ μ : Type}

def kind : Operand κ → OperandKind
  | .none => .none
  | .byte _ => .byte
  | .int32 _ => .int32
  | .int64 _ => .int64
  | .float32 _ => .float32
  | .float64 _ => .float64
  | .string _ => .string
  | .method _ => .method
  | .type _ => .type

def map (f : κ → μ) : Operand κ → Operand μ
  | .none => .none
  | .byte b => .byte b
  | .int32 n => .int32 n
  | .int64 n => .int64 n
  | .float32 x => .float32 x
  | .float64 x => .float64 x
  | .string s => .string s
  | .method callee => .method (f callee)
  | .type t => .type t

/-- Equality of operands, floating-point numbers as numbers. -/
def equal [BEq κ] : Operand κ → Operand κ → Bool
  | .none, .none => true
  | .byte a, .byte b => a == b
  | .int32 a, .int32 b => a == b
  | .int64 a, .int64 b => a == b
  | .float32 a, .float32 b => a.equal b
  | .float64 a, .float64 b => a.equal b
  | .string a, .string b => a == b
  | .method a, .method b => a == b
  | .type a, .type b => a == b
  | _, _ => false

/-- The text of an operand, which is empty if there is none. -/
def text [ToString κ] : Operand κ → String
  | .none => ""
  | .byte b => toString b.toNat
  | .int32 n => toString n.toInt
  | .int64 n => toString n.toInt
  | .float32 x => x.text .pointed
  | .float64 x => x.text .pointed
  | .string s => Text.quote s
  | .method callee => toString callee
  | .type t => t.text

def text? [ToString κ] : Operand κ → Option String
  | .none => Option.none
  | operand => some operand.text

end Operand

structure Instruction (κ : Type) where
  op : OpCode
  operand : Operand κ
deriving Inhabited, Repr

namespace Instruction

variable {κ μ : Type}

def bare (op : OpCode) : Instruction κ := ⟨op, .none⟩

def map (f : κ → μ) (i : Instruction κ) : Instruction μ := ⟨i.op, i.operand.map f⟩

def equal [BEq κ] (i j : Instruction κ) : Bool := i.op == j.op && i.operand.equal j.operand

def text [ToString κ] (i : Instruction κ) : String :=
  match i.operand.text? with
  | none => i.op.mnemonic
  | some operand => i.op.mnemonic ++ " " ++ operand

/-- The number of bytes of an instruction in code. -/
def length (i : Instruction κ) : Except BuildError Nat :=
  match i.op.length? with
  | some n => .ok n
  | none => .error (.unmeasurableOperand i.op)

/-- Whether the operand is of the kind that the opcode asks for. -/
def check (i : Instruction κ) : Except BuildError Unit :=
  if i.operand.kind = i.op.operandKind then .ok () else .error (.invalidOperand i.op)

/-! ### Indexed loads -/

/-- Pushes an argument, in the shortest form. -/
def loadArgument (index : UInt8) : Instruction κ :=
  match index.toNat with
  | 0 => bare .ldarg0
  | 1 => bare .ldarg1
  | 2 => bare .ldarg2
  | 3 => bare .ldarg3
  | _ => ⟨.ldargS, .byte index⟩

def loadLocal (index : UInt8) : Instruction κ :=
  match index.toNat with
  | 0 => bare .ldloc0
  | 1 => bare .ldloc1
  | 2 => bare .ldloc2
  | 3 => bare .ldloc3
  | _ => ⟨.ldlocS, .byte index⟩

def loadLocalAddress (index : UInt8) : Instruction κ := ⟨.ldlocaS, .byte index⟩

/-- The shortest form of an indexed load. Loads of the first four arguments and locals have
opcodes of their own; the forms that take an address keep the index. -/
def indexed (op : OpCode) (index : UInt8) : Except BuildError (Instruction κ) :=
  match op with
  | .ldargS => .ok (loadArgument index)
  | .ldlocS => .ok (loadLocal index)
  | .ldargaS | .ldlocaS => .ok ⟨op, .byte index⟩
  | op => .error (.invalidMacro op)

end Instruction

/-- An index of an argument or a local as the one byte of a short operand. -/
def shortIndex (kind : IndexKind) (index : Nat) : Except BuildError UInt8 :=
  if index < 256 then .ok (UInt8.ofNat index) else .error (.limitExceeded kind index)

end CallAdapter
