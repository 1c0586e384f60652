import CallAdapter.Error
import CallAdapter.Value.Slot
import CallAdapter.Value.Text

/-!
# Signatures

A signature lists the parameters of a procedure in order and gives the type of its result. A
parameter's position is its place in that list; it shows only in the label of a parameter
without a name.

`Signature.receive` checks a call's arguments against a signature before anything runs.
-/

namespace CallAdapter

/-- A declared parameter. It is optional when it has a default. -/
structure Parameter where
  name : Option String
  type : ValueType
  default : Option Value
deriving Inhabited, Repr

namespace Parameter

def ofType (t : ValueType) : Parameter := ⟨none, t, none⟩

def isOptional (p : Parameter) : Bool := p.default.isSome

def label (p : Parameter) (position : Nat) : String :=
  match p.name with
  | some name => s!"{name}: {p.type}"
  | none => s!"#{position}: {p.type}"

def declaredDefault (p : Parameter) (position : Nat) : Except BuildError Value :=
  match p.default with
  | some v => .ok v
  | none => .error (.missingDefault (p.label position))

def text (p : Parameter) : String :=
  match p.name with
  | some name => s!"{name}: {p.type}"
  | none => p.type.text

end Parameter

/-- The parameters of a procedure in order, and the type of its result. -/
structure Signature where
  params : List Parameter
  result : ValueType
deriving Inhabited, Repr

/-- Puts values into slots of the given types, in order; the first that does not fit is
reported by its index, counted from `index`. -/
def fitAll (fit : Value → ValueType → Option Value) (procedure : String) (index : Nat) :
    List ValueType → List Value → Except RunError (List Value)
  | t :: ts, v :: vs =>
    match fit v t with
    | some w => (fitAll fit procedure (index + 1) ts vs).map (w :: ·)
    | none => .error (.argumentType procedure index t v.typeName)
  | _, _ => .ok []

namespace Signature

def arity (s : Signature) : Nat := s.params.length

def types (s : Signature) : List ValueType := s.params.map Parameter.type

def text (s : Signature) : String :=
  "(" ++ ", ".intercalate (s.params.map Parameter.text) ++ ") -> " ++ s.result.text

/-- The arguments as a procedure of this signature receives them: as many as there are
parameters, each fitting its parameter. -/
def receive (s : Signature) (procedure : String) (args : List Value) :
    Except RunError (List Value) :=
  if args.length = s.arity then fitAll Value.asArgument? procedure 0 s.types args
  else .error (.argumentCount procedure s.arity args.length)

end Signature

end CallAdapter
