import CallAdapter.Code.Body
import CallAdapter.Signature
import CallAdapter.Store

/-!
# Procedures

A procedure is a host function or has been generated, with a body in code. A body calls
other procedures and the constructors of nullable wrappers: its *callees*. A procedure holds
the procedures that it calls, so procedures are finite trees.

Procedures are told apart by their identity, constructors by their type.
-/

namespace CallAdapter

/-- A function of the host. It sees the arguments as its procedure has received them. Host functions
are taken to be pure: the same arguments always give the same outcome, and nothing else changes. -/
abbrev HostFunction := List Value → Except RunError Value

/-- What a generated procedure is known by, and the resolver that its zero values come
from. -/
structure Header where
  id : ProcedureId
  name : String
  resolver : ResolverId
deriving Inhabited, Repr

mutual

inductive Procedure where
  | host (id : ProcedureId) (name : String) (signature : Signature) (function : HostFunction)
  | generated (header : Header) (signature : Signature) (body : Body Callee)

/-- What a body can call. -/
inductive Callee where
  | procedure (target : Procedure)
  /-- The constructor of the wrapper around values of the given type. -/
  | wrapper (underlying : ValueType)

end

namespace Procedure

def id : Procedure → ProcedureId
  | .host id _ _ _ => id
  | .generated header _ _ => header.id

def name : Procedure → String
  | .host _ name _ _ => name
  | .generated header _ _ => header.name

def signature : Procedure → Signature
  | .host _ _ signature _ => signature
  | .generated _ signature _ => signature

/-- The body of a generated procedure. -/
def body? : Procedure → Option (Body Callee)
  | .host _ _ _ _ => none
  | .generated _ _ body => some body

/-- How a procedure is shown by those who only call it. -/
def text (p : Procedure) : String := p.name ++ p.signature.text

/-- How a procedure is shown with what is known about its making. -/
def detail (p : Procedure) : String :=
  match p.body? with
  | none => "native " ++ p.text
  | some body =>
    s!"generated {p.text} [{body.code.length} bytes, {body.locals.length} locals]"

end Procedure

namespace Callee

def same : Callee → Callee → Bool
  | .procedure p, .procedure q => p.id == q.id
  | .wrapper s, .wrapper t => s == t
  | _, _ => false

instance : BEq Callee := ⟨same⟩

def params : Callee → List ValueType
  | .procedure p => p.signature.types
  | .wrapper t => [t]

def result : Callee → ValueType
  | .procedure p => p.signature.result
  | .wrapper t => .nullable t

def text : Callee → String
  | .procedure p =>
    p.signature.result.text ++ " " ++ p.name ++ "(" ++
      ", ".intercalate (p.signature.types.map ValueType.text) ++ ")"
  | .wrapper t => t.text ++ "?::.ctor(" ++ t.text ++ ")"

instance : ToString Callee := ⟨text⟩

end Callee

/-- The constructor of the wrapper around values of type `t`: wraps its one argument. -/
def wrapOne (t : ValueType) : List Value → Except RunError Value
  | [v] => .ok (.present v)
  | args => .error (.argumentCount (t.text ++ "?::.ctor") 1 args.length)

end CallAdapter
