import CallAdapter.Code.Listing
import CallAdapter.Machine.Frame
import CallAdapter.Procedure.Basic

/-!
# Calls

`Procedure.invoke` calls a procedure. The arguments are received first. A host procedure then
runs its function; a generated one decodes its body and executes it, and the calls in the
body call the procedures that it holds.

The recursion is on the procedure itself: a body is executed with its callees replaced by the
calls to them, so it goes from a procedure to those that it holds. By `linkBody_eq` this
replacement is `Body.map`.
-/

namespace CallAdapter

mutual

def Procedure.invoke : Procedure → List Value → Run Value
  | .host _ name signature function, args => do
    let args ← Task.ofExcept (signature.receive name args)
    Task.ofExcept (function args)
  | .generated header signature body, args => do
    let args ← Task.ofExcept (signature.receive header.name args)
    let code ← Task.decode header.id (linkBody body)
    Machine.execute ⟨header.name, signature.result, header.resolver⟩ code body.locals args

/-- A body with the calls to its callees. -/
def linkBody : Body Callee → Body Machine.Link
  | ⟨code, locals, tables⟩ => ⟨code, locals, linkTables tables⟩

def linkTables : Tables Callee → Tables Machine.Link
  | ⟨strings, methods, types⟩ => ⟨strings, linkAll methods, types⟩

def linkAll : List Callee → List Machine.Link
  | [] => []
  | callee :: callees => callee.link :: linkAll callees

/-- The call to a callee. -/
def Callee.link : Callee → Machine.Link
  | .procedure p => ⟨(Callee.procedure p).text, p.signature.types, p.signature.result, p.invoke⟩
  | .wrapper t =>
    ⟨(Callee.wrapper t).text, [t], .nullable t, fun args => Task.ofExcept (wrapOne t args)⟩

end

theorem linkAll_eq (callees : List Callee) : linkAll callees = callees.map Callee.link := by
  induction callees with
  | nil => rfl
  | cons callee callees ih => simp [linkAll, ih]

/-- Linking a body replaces each callee by the call to it. -/
theorem linkBody_eq (b : Body Callee) : linkBody b = b.map Callee.link := by
  obtain ⟨code, locals, strings, methods, types⟩ := b
  simp [linkBody, linkTables, linkAll_eq, Body.map, Tables.map]

/-- Calls a callee. -/
def Callee.invoke (callee : Callee) (args : List Value) : Run Value := callee.link.call args

/-- The listing of a generated procedure's body. Host procedures have none. -/
def Procedure.listing (p : Procedure) : Run (List ListingLine) :=
  match p.body? with
  | none => return []
  | some body => return (← Task.decode p.id body).map Placed.line

end CallAdapter
