import CallAdapter.Adapt.Assemble
import CallAdapter.Adapt.Constant

/-!
# Adapting to a supplied signature

`adapt` calls a target with the arguments of a supplied signature for the target's leading
parameters, and with given values for the parameters that follow. These values are given by
position or by name; a parameter without one takes its declared default.
-/

namespace CallAdapter

inductive Filling where
  /-- By position among the open parameters. -/
  | positional (values : List Value)
  /-- By name; of several values for one name the last counts. -/
  | named (entries : List (String × Value))
deriving Inhabited, Repr

/-! ### Checking the supplied signature -/

/-- Checks that the supplied parameters from a position on can be passed for the target's. -/
def checkForwarded (position : Nat) : List Parameter → List Parameter → Except BuildError Unit
  | ours :: supplied, theirs :: target =>
    if theirs.type.isAssignableFrom ours.type then checkForwarded (position + 1) supplied target
    else .error (.signatureMismatch (.parameter position) theirs.type ours.type)
  | _, _ => .ok ()

/-- Checks that a supplied signature can stand for the leading part of the target's. -/
def checkSupplied (supplied target : Signature) : Except BuildError Unit :=
  if !target.result.isAssignableFrom supplied.result then
    .error (.signatureMismatch .result target.result supplied.result)
  else if target.arity < supplied.arity then
    .error (.arityMismatch target.arity supplied.arity)
  else checkForwarded 0 supplied.params target.params

/-! ### The values of the open parameters -/

def lastNamed? (entries : List (String × Value)) (name : String) : Option Value :=
  entries.reverse.lookup name

/-- Values by position for the open parameters from a position on. -/
def fillByPosition (position : Nat) :
    List Parameter → List Value → Except BuildError (List Value)
  | [], _ => .ok []
  | _ :: trailing, v :: values => (fillByPosition (position + 1) trailing values).map (v :: ·)
  | p :: trailing, [] => do
    let v ← p.declaredDefault position
    return v :: (← fillByPosition (position + 1) trailing [])

/-- Values by name for the open parameters from a position on. A value is used once: for the
first parameter of its name. -/
def fillByName (entries : List (String × Value)) (position : Nat) (used : List String) :
    List Parameter → Except BuildError (List Value)
  | [] => .ok []
  | p :: trailing =>
    let given := p.name.bind fun name => if name ∈ used then none else lastNamed? entries name
    match given with
    | some v => (fillByName entries (position + 1) (p.name.toList ++ used) trailing).map (v :: ·)
    | none => do
      let v ← p.declaredDefault position
      return v :: (← fillByName entries (position + 1) used trailing)

/-- The names with a value that no open parameter has, each once and in order. -/
def unknownNames (entries : List (String × Value)) (trailing : List Parameter) : List String :=
  let known := trailing.filterMap Parameter.name
  ((entries.map Prod.fst).filter (!known.contains ·)).eraseDups.mergeSort fun a b => !(b < a)

/-- One value for each open parameter, the first of which is at a position. -/
def Filling.values (position : Nat) (trailing : List Parameter) :
    Filling → Except BuildError (List Value)
  | .positional values =>
    if trailing.length < values.length then .error (.arityMismatch trailing.length values.length)
    else fillByPosition position trailing values
  | .named entries =>
    match unknownNames entries trailing with
    | [] => fillByName entries position [] trailing
    | names => .error (.unknownName names)

/-! ### Adapting -/

/-- The instructions that push the first `n` arguments. -/
def forwardAll {κ : Type} (n : Nat) : Except BuildError (List (Instruction κ)) :=
  (List.range n).mapM fun index => (shortIndex .argument index).map .loadArgument

/-- The instructions that push values for parameters, after the slots `locals` have been asked
for. -/
def loadAll (locals : Locals) :
    List (Parameter × Value) → Except BuildError (List (Instruction Callee) × Locals)
  | [] => .ok ([], locals)
  | (p, v) :: rest => do
    let (code, locals) ← loadConstant (some v) p.type locals
    let (more, locals) ← loadAll locals rest
    return (code ++ more, locals)

/-- The procedure with the supplied parameters that calls a target, passing its own arguments
first and the values of a filling after them. -/
def adapt (header : Header) (supplied : Signature) (target : Procedure) (filling : Filling) :
    Build Procedure := do
  let trailing := target.signature.params.drop supplied.arity
  Task.ofExcept (checkSupplied supplied target.signature)
  let forwarded ← Task.ofExcept (forwardAll supplied.arity)
  let values ← Task.ofExcept (filling.values supplied.arity trailing)
  let (code, locals) ← Task.ofExcept (loadAll .empty (trailing.zip values))
  assemble header supplied.params target (forwarded ++ code) locals

end CallAdapter
