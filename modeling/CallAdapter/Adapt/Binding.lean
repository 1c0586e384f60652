import CallAdapter.Adapt.Assemble
import CallAdapter.Adapt.Constant
import CallAdapter.Value.Convert

/-!
# Binding parameters

`bindAt` applies a target partially. Each parameter in a window of the target's parameters is
kept, fixed to a value, or set to a default; parameters outside the window are kept. The
kept parameters, in order, are those of the new procedure.
-/

namespace CallAdapter

inductive DefaultPolicy where
  /-- The declared default; the parameter must have one. -/
  | parameter
  /-- The zero value of the parameter's type. -/
  | type
  /-- The declared default if there is one, and else the zero value of the type. -/
  | parameterOrType
deriving DecidableEq, Repr

inductive Binding where
  | keep
  /-- Set to this value, converted to the parameter's type. -/
  | fixed (v : Value)
  | default (policy : DefaultPolicy)
deriving Inhabited, Repr

def DefaultPolicy.text : DefaultPolicy → String
  | .parameter => "Parameter"
  | .type => "Type"
  | .parameterOrType => "ParameterOrType"

namespace Binding

def text : Binding → String
  | .keep => "_"
  | .fixed v => v.text
  | .default policy => "default(" ++ policy.text ++ ")"

/-- The binding of the parameter at a position, for bindings of the window that begins at
`start`. -/
def atPosition (bindings : List Binding) (start position : Nat) : Binding :=
  if position < start then .keep else bindings.getD (position - start) .keep

end Binding

/-- The default of the parameter at a position. A reference type has no zero value. -/
def Parameter.defaultBy (p : Parameter) (position : Nat) (resolver : ResolverId) :
    DefaultPolicy → Build (Option Value)
  | .parameter => some <$> Task.ofExcept (p.declaredDefault position)
  | .type => Task.zero? resolver p.type
  | .parameterOrType =>
    match p.default with
    | some v => return some v
    | none => Task.zero? resolver p.type

/-- The code that pushes a target's arguments, the local slots it needs, and the parameters
that it takes. -/
structure Arrangement where
  code : List (Instruction Callee)
  locals : Locals
  params : List Parameter

/-- Arranges the arguments for the parameters from a position on, after `kept` parameters
have been kept and the slots `locals` have been asked for. The parameters come with their
bindings. -/
def arrange (resolver : ResolverId) (position kept : Nat) (locals : Locals) :
    List (Parameter × Binding) → Build Arrangement
  | [] => return ⟨[], locals, []⟩
  | (p, .keep) :: rest => do
    let index ← Task.ofExcept (shortIndex .argument kept)
    let a ← arrange resolver (position + 1) (kept + 1) locals rest
    return ⟨.loadArgument index :: a.code, a.locals, p :: a.params⟩
  | (p, .fixed v) :: rest => do
    let v ← Task.ofExcept (v.convert p.type)
    let (code, locals) ← Task.ofExcept (loadConstant (some v) p.type locals)
    let a ← arrange resolver (position + 1) kept locals rest
    return { a with code := code ++ a.code }
  | (p, .default policy) :: rest => do
    let v ← p.defaultBy position resolver policy
    let (code, locals) ← Task.ofExcept (loadConstant v p.type locals)
    let a ← arrange resolver (position + 1) kept locals rest
    return { a with code := code ++ a.code }

/-- The greatest count that is reported. -/
def countLimit : Nat := 0xFFFFFFFFFFFFFFFF

/-- The procedure that calls a target with the parameters from `start` on bound. -/
def bindAt (header : Header) (target : Procedure) (bindings : List Binding) (start : Nat) :
    Build Procedure := do
  let params := target.signature.params
  if params.length < start + bindings.length then
    throw (.arityMismatch params.length (min (start + bindings.length) countLimit))
  let bound := params.mapIdx fun position p => (p, Binding.atPosition bindings start position)
  let a ← arrange header.resolver 0 0 .empty bound
  assemble header a.params target a.code a.locals

def bindFirst (header : Header) (target : Procedure) (bindings : List Binding) :
    Build Procedure :=
  bindAt header target bindings 0

def bindLast (header : Header) (target : Procedure) (bindings : List Binding) :
    Build Procedure :=
  let available := target.signature.arity
  if available < bindings.length then throw (.arityMismatch available bindings.length)
  else bindAt header target bindings (available - bindings.length)

end CallAdapter
