import CallAdapter.Code.OpCode
import CallAdapter.Text.Hex
import CallAdapter.ValueType

/-!
# Errors

`BuildError` says why a procedure could not be built and `RunError` why a call failed. Each
constructor is one cause with what is needed to describe it; the wording is in `message`.
-/

namespace CallAdapter

/-- The part of a signature that does not fit. -/
inductive SignaturePart where
  | result
  | parameter (position : Nat)
deriving DecidableEq, Repr

/-- What an index counts. -/
inductive IndexKind where
  | argument
  | localSlot
deriving DecidableEq, Repr

/-- Why a procedure could not be built. -/
inductive BuildError where
  /-- The result or a forwarded parameter cannot be assigned. -/
  | signatureMismatch (part : SignaturePart) (expected actual : ValueType)
  /-- Values are given for names that no open parameter has. -/
  | unknownName (names : List String)
  /-- More values, or a wider window, than there are parameters. -/
  | arityMismatch (available supplied : Nat)
  /-- No constant of this type can be written into code. -/
  | unsupportedType (type : ValueType)
  /-- The value so shown is no instance of the type and does not convert to it. -/
  | valueMismatch (shown : String) (expected : ValueType)
  /-- The parameter so shown has no declared default. -/
  | missingDefault (parameter : String)
  /-- The opcode is no indexed load. -/
  | invalidMacro (op : OpCode)
  /-- The operand is not of the opcode's kind. -/
  | invalidOperand (op : OpCode)
  /-- The opcode's kind of operand has no length. -/
  | unmeasurableOperand (op : OpCode)
  /-- The index does not fit one byte. -/
  | limitExceeded (kind : IndexKind) (index : Nat)
deriving DecidableEq, Repr

/-- Why a call failed. -/
inductive RunError where
  | argumentCount (procedure : String) (expected actual : Nat)
  | argumentType (procedure : String) (index : Nat) (expected : ValueType) (actual : String)
  | stackUnderflow (offset : Nat)
  | badAddress (offset : Nat)
  | badToken (offset : Nat) (token : UInt32)
  | unsupportedOpcode (offset : Nat) (byte : UInt8)
  | truncated (offset : Nat)
  | missingReturn (offset : Nat)
  /-- A host function failed, with its own message. -/
  | host (message : String)
deriving DecidableEq, Repr

def SignaturePart.text : SignaturePart → String
  | .result => "return type"
  | .parameter position => s!"parameter {position}"

def IndexKind.text : IndexKind → String
  | .argument => "argument"
  | .localSlot => "local"

def BuildError.message : BuildError → String
  | .signatureMismatch part expected actual =>
    s!"signature mismatch: {part.text} (expected {expected}, got {actual})"
  | .unknownName names => "unknown parameter name(s): " ++ ", ".intercalate names
  | .arityMismatch available supplied =>
    s!"parameter count exceeded: {supplied} supplied, {available} available"
  | .unsupportedType type => s!"parameters of type {type} are not supported"
  | .valueMismatch shown expected => s!"cannot convert {shown} to {expected}"
  | .missingDefault parameter => s!"parameter {parameter} requires a value"
  | .invalidMacro op => s!"unexpected macro opcode {op}"
  | .invalidOperand op => s!"opcode {op} expects a {op.operandKind.text} operand"
  | .unmeasurableOperand op => s!"unexpected operand type {op.operandKind.text} on {op}"
  | .limitExceeded kind index => s!"{kind.text} index {index} does not fit a short operand"

/-- The place of an instruction in a message. -/
def placeText (offset : Nat) : String := "IL_" ++ Text.hex 4 offset

def RunError.message : RunError → String
  | .argumentCount procedure expected actual =>
    s!"{procedure} expects {expected} argument(s), got {actual}"
  | .argumentType procedure index expected actual =>
    s!"{procedure}: argument {index} must be {expected}, got {actual}"
  | .stackUnderflow offset => "evaluation stack underflow at " ++ placeText offset
  | .badAddress offset => "expected an address on the stack at " ++ placeText offset
  | .badToken offset token =>
    "invalid token 0x" ++ Text.hex 8 token.toNat ++ " at " ++ placeText offset
  | .unsupportedOpcode offset byte =>
    "unsupported opcode 0x" ++ Text.hex 2 byte.toNat ++ " at " ++ placeText offset
  | .truncated offset => "truncated instruction at " ++ placeText offset
  | .missingReturn offset => "body ends without ret at " ++ placeText offset
  | .host message => message

end CallAdapter
