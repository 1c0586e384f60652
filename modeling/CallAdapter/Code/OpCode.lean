/-!
# Opcodes

The opcodes of the stack machine. Each has a mnemonic, one or two bytes that stand for it in
code, and the kind of operand that follows. Three kinds have no length, so that no
instruction of such an opcode can be measured or decoded.
-/

namespace CallAdapter

/-- What follows an opcode. -/
inductive OperandKind where
  | none
  /-- One byte: a small constant, or the index of an argument or a local. -/
  | byte
  | int32
  | int64
  | float32
  | float64
  /-- A token into the table of strings. -/
  | string
  /-- A token into the table of callees. -/
  | method
  /-- A token into the table of types. -/
  | type
  | branchTarget
  | field
  | token
deriving DecidableEq, Inhabited, Repr

namespace OperandKind

/-- The number of bytes of an operand, for the kinds that have one. -/
def length? : OperandKind → Option Nat
  | .none => some 0
  | .byte => some 1
  | .int32 | .float32 => some 4
  | .int64 | .float64 => some 8
  | .string | .method | .type => some 4
  | .branchTarget | .field | .token => Option.none

def text : OperandKind → String
  | .none => "None"
  | .byte => "Byte"
  | .int32 => "Int32"
  | .int64 => "Int64"
  | .float32 => "Float32"
  | .float64 => "Float64"
  | .string => "String"
  | .method => "Method"
  | .type => "Type"
  | .branchTarget => "BranchTarget"
  | .field => "Field"
  | .token => "Token"

end OperandKind

inductive OpCode where
  | nop
  | ldarg0
  | ldarg1
  | ldarg2
  | ldarg3
  | ldloc0
  | ldloc1
  | ldloc2
  | ldloc3
  | ldargS
  | ldargaS
  | ldlocS
  | ldlocaS
  | ldcI40
  | ldcI41
  | ldcI4S
  | ldcI4
  | ldcI8
  | ldcR4
  | ldcR8
  | dup
  | pop
  | call
  | ret
  | br
  | ldstr
  | newobj
  | ldfld
  | ldtoken
  | initobj
deriving DecidableEq, Inhabited, Repr

namespace OpCode

def all : List OpCode :=
  [.nop, .ldarg0, .ldarg1, .ldarg2, .ldarg3, .ldloc0, .ldloc1, .ldloc2, .ldloc3, .ldargS,
    .ldargaS, .ldlocS, .ldlocaS, .ldcI40, .ldcI41, .ldcI4S, .ldcI4, .ldcI8, .ldcR4, .ldcR8,
    .dup, .pop, .call, .ret, .br, .ldstr, .newobj, .ldfld, .ldtoken, .initobj]

theorem mem_all (op : OpCode) : op ∈ all := by cases op <;> decide

def mnemonic : OpCode → String
  | .nop => "nop"
  | .ldarg0 => "ldarg.0"
  | .ldarg1 => "ldarg.1"
  | .ldarg2 => "ldarg.2"
  | .ldarg3 => "ldarg.3"
  | .ldloc0 => "ldloc.0"
  | .ldloc1 => "ldloc.1"
  | .ldloc2 => "ldloc.2"
  | .ldloc3 => "ldloc.3"
  | .ldargS => "ldarg.s"
  | .ldargaS => "ldarga.s"
  | .ldlocS => "ldloc.s"
  | .ldlocaS => "ldloca.s"
  | .ldcI40 => "ldc.i4.0"
  | .ldcI41 => "ldc.i4.1"
  | .ldcI4S => "ldc.i4.s"
  | .ldcI4 => "ldc.i4"
  | .ldcI8 => "ldc.i8"
  | .ldcR4 => "ldc.r4"
  | .ldcR8 => "ldc.r8"
  | .dup => "dup"
  | .pop => "pop"
  | .call => "call"
  | .ret => "ret"
  | .br => "br"
  | .ldstr => "ldstr"
  | .newobj => "newobj"
  | .ldfld => "ldfld"
  | .ldtoken => "ldtoken"
  | .initobj => "initobj"

def encoding : OpCode → List UInt8
  | .nop => [0x00]
  | .ldarg0 => [0x02]
  | .ldarg1 => [0x03]
  | .ldarg2 => [0x04]
  | .ldarg3 => [0x05]
  | .ldloc0 => [0x06]
  | .ldloc1 => [0x07]
  | .ldloc2 => [0x08]
  | .ldloc3 => [0x09]
  | .ldargS => [0x0E]
  | .ldargaS => [0x0F]
  | .ldlocS => [0x11]
  | .ldlocaS => [0x12]
  | .ldcI40 => [0x16]
  | .ldcI41 => [0x17]
  | .ldcI4S => [0x1F]
  | .ldcI4 => [0x20]
  | .ldcI8 => [0x21]
  | .ldcR4 => [0x22]
  | .ldcR8 => [0x23]
  | .dup => [0x25]
  | .pop => [0x26]
  | .call => [0x28]
  | .ret => [0x2A]
  | .br => [0x38]
  | .ldstr => [0x72]
  | .newobj => [0x73]
  | .ldfld => [0x7B]
  | .ldtoken => [0xD0]
  | .initobj => [0xFE, 0x15]

def operandKind : OpCode → OperandKind
  | .ldargS | .ldargaS | .ldlocS | .ldlocaS | .ldcI4S => .byte
  | .ldcI4 => .int32
  | .ldcI8 => .int64
  | .ldcR4 => .float32
  | .ldcR8 => .float64
  | .ldstr => .string
  | .call | .newobj => .method
  | .initobj => .type
  | .br => .branchTarget
  | .ldfld => .field
  | .ldtoken => .token
  | _ => .none

/-- The number of bytes of an opcode without its operand. -/
def size (op : OpCode) : Nat := op.encoding.length

theorem size_pos (op : OpCode) : 0 < op.size := by cases op <;> decide

def firstByte (op : OpCode) : UInt8 := op.encoding.headD 0

/-- The number of bytes of an opcode with its operand, if its kind of operand has a
length. -/
def length? (op : OpCode) : Option Nat := op.operandKind.length?.map (op.size + ·)

/-- The opcode at the head of some code. No encoding begins another, so there is at most
one. -/
def read? (code : List UInt8) : Option OpCode :=
  all.find? fun op => op.encoding.isPrefixOf code

/-- The encoding of an opcode is read back, whatever follows it. -/
theorem read?_encoding_append (op : OpCode) (rest : List UInt8) :
    read? (op.encoding ++ rest) = some op := by
  cases op <;> rfl

/-- The opcode with the given mnemonic. -/
def ofMnemonic? (s : String) : Option OpCode := all.find? fun op => op.mnemonic == s

instance : ToString OpCode := ⟨mnemonic⟩

end OpCode

end CallAdapter
