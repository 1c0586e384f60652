import CallAdapter.Adapt.Binding
import CallAdapter.Adapt.Filling
import CallAdapter.Procedure.Invoke

/-!
# Workspaces

A workspace holds procedures under names of the user's choice, together with the store that
they run on. Giving a name to a procedure takes it away from the one that had it; procedures
built on that one keep it.

A workspace has a resolver of its own. Beside it there is a resolver shared by all
workspaces.
-/

namespace CallAdapter

/-- A procedure in a workspace. A sealed one can be called, and its code is not shown. -/
structure Entry where
  procedure : Procedure
  isSealed : Bool

structure Workspace where
  entries : List (String × Entry)
  nextId : ProcedureId
  store : Store

inductive WorkspaceError where
  /-- No procedure has this name. -/
  | unknown (key : String)
  | build (error : BuildError)
  | run (error : RunError)
deriving DecidableEq, Repr

def WorkspaceError.message : WorkspaceError → String
  | .unknown key => "no procedure " ++ key
  | .build error => error.message
  | .run error => error.message

/-- A callee that is not looked up yet. -/
inductive CalleeName where
  | procedure (key : String)
  | wrapper (underlying : ValueType)
deriving DecidableEq, Repr

/-- A window of parameters to bind. -/
inductive Window where
  | first
  | last
  | start (position : Nat)
deriving DecidableEq, Repr

/-- The resolver shared by all workspaces. -/
def sharedResolver : ResolverId := 0

def ownResolver : ResolverId := 1

abbrev Work (α : Type) := ExceptT WorkspaceError (StateM Workspace) α

namespace Workspace

def empty : Workspace := ⟨[], 0, .empty⟩

instance : Inhabited Workspace := ⟨empty⟩

def zeros (w : Workspace) : ZeroCache := w.store.cache ownResolver

/-- Runs a task on the workspace's store. -/
def perform {ε α : Type} (wrap : ε → WorkspaceError) (x : Task ε α) : Work α :=
  fun w =>
    let (result, store) := x.runOn w.store
    (result.mapError wrap, { w with store })

def find (key : String) : Work Entry := do
  match (← get).entries.lookup key with
  | some entry => return entry
  | none => throw (.unknown key)

def callee : CalleeName → Work Callee
  | .procedure key => return .procedure (← find key).procedure
  | .wrapper t => return .wrapper t

def operand : Operand CalleeName → Work (Operand Callee)
  | .none => return .none
  | .byte b => return .byte b
  | .int32 n => return .int32 n
  | .int64 n => return .int64 n
  | .float32 x => return .float32 x
  | .float64 x => return .float64 x
  | .string s => return .string s
  | .method name => return .method (← callee name)
  | .type t => return .type t

def instruction (i : Instruction CalleeName) : Work (Instruction Callee) :=
  return ⟨i.op, ← operand i.operand⟩

/-- An identity that no procedure has yet. -/
def freshId : Work ProcedureId :=
  modifyGet fun w => (w.nextId, { w with nextId := w.nextId + 1 })

/-- Names a procedure. -/
def define (key : String) (entry : Entry) : Work Entry := do
  modify fun w => { w with entries := (key, entry) :: w.entries }
  return entry

def build (key name : String) (resolver : ResolverId) (isSealed : Bool)
    (make : Header → Build Procedure) : Work Entry := do
  let procedure ← perform .build (make ⟨← freshId, name, resolver⟩)
  define key ⟨procedure, isSealed⟩

def addHost (key name : String) (signature : Signature) (function : HostFunction) :
    Work Entry := do
  define key ⟨.host (← freshId) name signature function, false⟩

def addAdapted (key name : String) (resolver : ResolverId) (isSealed : Bool)
    (supplied : Signature) (target : String) (filling : Filling) : Work Entry := do
  let target := (← find target).procedure
  build key name resolver isSealed fun header => adapt header supplied target filling

def addBound (key name : String) (resolver : ResolverId) (isSealed : Bool) (target : String)
    (window : Window) (bindings : List Binding) : Work Entry := do
  let target := (← find target).procedure
  build key name resolver isSealed fun header =>
    match window with
    | .first => bindFirst header target bindings
    | .last => bindLast header target bindings
    | .start position => bindAt header target bindings position

def addProgram (key name : String) (isSealed : Bool) (signature : Signature)
    (locals : List ValueType) (code : List (Instruction CalleeName)) : Work Entry := do
  let code ← code.mapM instruction
  build key name ownResolver isSealed fun header => Task.ofExcept do
    let locals ← Locals.empty.addAll locals
    return .generated header signature (← Draft.finish ⟨code, locals⟩)

def addRaw (key name : String) (isSealed : Bool) (signature : Signature)
    (body : Body CalleeName) : Work Entry := do
  let methods ← body.tables.methods.mapM callee
  build key name ownResolver isSealed fun header =>
    return .generated header signature ⟨body.code, body.locals, { body.tables with methods }⟩

def invoke (key : String) (args : List Value) : Work Value := do
  perform .run ((← find key).procedure.invoke args)

def listing (key : String) : Work (List ListingLine) := do
  perform .run (← find key).procedure.listing

def call (callee : Callee) (args : List Value) : Work Value := perform .run (callee.invoke args)

def zero? (t : ValueType) : Work (Option Value) :=
  perform WorkspaceError.run (Task.zero? ownResolver t)

/-- The events logged since the last time, in order. -/
def takeEvents : StateM Workspace (List Event) :=
  modifyGet fun w =>
    (w.store.events.reverse, { w with store := { w.store with events := [] } })

end Workspace

end CallAdapter
