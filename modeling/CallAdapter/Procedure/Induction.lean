import CallAdapter.Procedure.Basic

/-!
# Induction on procedures

Procedures are finite trees: what holds of every host procedure, and of a generated procedure
whenever it holds of all procedures that its body can call, holds of every procedure.
-/

namespace CallAdapter

/-- Induction on procedures, through the procedures that a body can call. -/
theorem Procedure.induction {motive : Procedure → Prop}
    (host : ∀ id name signature function, motive (.host id name signature function))
    (generated : ∀ header signature body,
      (∀ p, Callee.procedure p ∈ body.tables.methods → motive p) →
        motive (.generated header signature body))
    (p : Procedure) : motive p := by
  apply @Procedure.rec motive
    (fun callee => ∀ p, callee = .procedure p → motive p)
    (fun body => ∀ p, Callee.procedure p ∈ body.tables.methods → motive p)
    (fun tables => ∀ p, Callee.procedure p ∈ tables.methods → motive p)
    (fun callees => ∀ p, Callee.procedure p ∈ callees → motive p)
  · exact host
  · exact generated
  · -- A callee that is a procedure is that procedure.
    intro target holds p same
    cases same
    exact holds
  · intro _ p same
    cases same
  · intro _ _ _ holds
    exact holds
  · intro _ _ _ holds
    exact holds
  · intro p mem
    cases mem
  · intro callee callees holds holdsAll p mem
    rcases List.mem_cons.mp mem with same | mem
    · exact holds p same.symm
    · exact holdsAll p mem

end CallAdapter
