import CallAdapter.Code.Body

/-!
# Decoding

`Body.decode` reads the instructions of a body back, each with the offset of its first byte.
Code is read from the front: an opcode, then as many bytes as its kind of operand has. The
first instruction that cannot be read ends the reading with an error at its offset.
-/

namespace CallAdapter

structure Placed (κ : Type) where
  offset : Nat
  instruction : Instruction κ
deriving Inhabited, Repr

variable {κ μ : Type}

def Placed.map (f : κ → μ) (p : Placed κ) : Placed μ := ⟨p.offset, p.instruction.map f⟩

/-- A token's entry, or an error that names the token. -/
def resolve {α : Type} (offset : Nat) (find? : UInt32 → Option α) (bytes : List UInt8) :
    Except RunError α :=
  let token := UInt32.ofNat (LittleEndian.read bytes)
  match find? token with
  | some a => .ok a
  | none => .error (.badToken offset token)

/-- The operand of a kind that some bytes stand for. Kinds without a length have none. -/
def Tables.read (t : Tables κ) (offset : Nat) (bytes : List UInt8) :
    OperandKind → Except RunError (Operand κ)
  | .byte => .ok (.byte (bytes.headD 0))
  | .int32 => .ok (.int32 (UInt32.ofNat (LittleEndian.read bytes)).toInt32)
  | .int64 => .ok (.int64 (UInt64.ofNat (LittleEndian.read bytes)).toInt64)
  | .float32 => .ok (.float32 (.ofWord (LittleEndian.read bytes)))
  | .float64 => .ok (.float64 (.ofWord (LittleEndian.read bytes)))
  | .string => (resolve offset t.string? bytes).map .string
  | .method => (resolve offset t.method? bytes).map .method
  | .type => (resolve offset t.type? bytes).map .type
  | _ => .ok .none

def Tables.decode (t : Tables κ) (offset : Nat) :
    List UInt8 → Except RunError (List (Placed κ))
  | [] => .ok []
  | b :: bs =>
    let code := b :: bs
    match OpCode.read? code with
    | none => .error (.unsupportedOpcode offset b)
    | some op =>
      match op.operandKind.length? with
      | none => .error (.unsupportedOpcode offset b)
      | some n =>
        let operandBytes := (code.drop op.size).take n
        if operandBytes.length < n then .error (.truncated offset)
        else do
          let operand ← t.read offset operandBytes op.operandKind
          let length := op.size + n
          let rest ← t.decode (offset + length) (code.drop length)
          return ⟨offset, ⟨op, operand⟩⟩ :: rest
termination_by code => code.length
decreasing_by
  have := op.size_pos
  simp only [List.length_drop, List.length_cons]
  omega

def Body.decode (b : Body κ) : Except RunError (List (Placed κ)) := b.tables.decode 0 b.code

end CallAdapter
