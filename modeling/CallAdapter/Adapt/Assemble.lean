import CallAdapter.Procedure.Basic

/-!
# Assembling procedures

A procedure that adapts a target pushes the target's arguments, calls it and returns what it
returns.
-/

namespace CallAdapter

/-- The procedure with the given parameters that pushes a target's arguments by `code`, calls
the target and returns its result. -/
def assemble (header : Header) (params : List Parameter) (target : Procedure)
    (code : List (Instruction Callee)) (locals : Locals) : Build Procedure := do
  let draft : Draft Callee :=
    ⟨code ++ [⟨.call, .method (.procedure target)⟩, .bare .ret], locals⟩
  let body ← Task.ofExcept draft.finish
  Task.update (Store.log · (.assembled header.name target.name params.length
    body.code.length body.locals.length))
  return .generated header ⟨params, target.signature.result⟩ body

end CallAdapter
