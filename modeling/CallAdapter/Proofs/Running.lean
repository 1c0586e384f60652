import CallAdapter.Proofs.Outcome

/-!
# Following a run

Rules for the outcome of a run, one for each way in which code is put together: an instruction in
front of code (`gives_steps_cons`), code behind code (`gives_steps_append`), and the single
instructions that generated bodies consist of. `gives_call` is the rule for calls: the values on
top of the stack are put into the slots of the callee's parameters, and then the callee's outcome
decides.
-/

namespace CallAdapter.Machine

open CallAdapter.Task

/-! ### Code in sequence -/

theorem gives_steps_cons {c : Context} {p : Placed Link} {ps : List (Placed Link)}
    {f f' : Frame} {r : Except RunError Progress}
    (hstep : (f.step c p.offset p.instruction).Gives (.ok (.next f')))
    (hrest : (steps c ps f').Gives r) : (steps c (p :: ps) f).Gives r :=
  hstep.bind_ok hrest

theorem gives_steps_append {c : Context} {ps qs : List (Placed Link)} {f f' : Frame}
    {r : Except RunError Progress} (hfirst : (steps c ps f).Gives (.ok (.next f')))
    (hrest : (steps c qs f').Gives r) : (steps c (ps ++ qs) f).Gives r := by
  rw [steps_append]
  exact hfirst.bind_ok hrest

theorem gives_steps_nil (c : Context) (f : Frame) : (steps c [] f).Gives (.ok (.next f)) :=
  gives_pure _

/-- Code that ends the procedure runs to its result. -/
theorem gives_run {c : Context} {code : List (Placed Link)} {f : Frame} {r : Except RunError Value}
    (h : (steps c code f).Gives (Progress.done <$> r)) : (run c code f).Gives r := by
  cases r with
  | ok v => exact h.bind_ok (gives_pure v)
  | error e => exact h.bind (g := fun _ => .error e) fun progress hprogress => nomatch hprogress

/-! ### Loads -/

theorem step_loadArgument (c : Context) (f : Frame) (offset : Nat) (index : UInt8) :
    f.step c offset (Instruction.loadArgument index)
      = .next <$> Task.ofExcept (f.loadArgument offset index.toNat) := by
  unfold Instruction.loadArgument
  split <;> simp_all [Frame.step, Instruction.bare]

theorem step_loadLocal (c : Context) (f : Frame) (offset : Nat) (index : UInt8) :
    f.step c offset (Instruction.loadLocal index)
      = .next <$> Task.ofExcept (f.loadLocal offset index.toNat) := by
  unfold Instruction.loadLocal
  split <;> simp_all [Frame.step, Instruction.bare]

theorem gives_loadArgument (c : Context) {f : Frame} (offset : Nat) (index : UInt8) {v : Value}
    (h : f.args[index.toNat]? = some v) :
    (f.step c offset (Instruction.loadArgument index)).Gives (.ok (.next (f.pushValue v))) := by
  rw [step_loadArgument, Frame.loadArgument, h]
  exact (gives_ofExcept _).map _

theorem gives_loadLocal (c : Context) {f : Frame} (offset : Nat) (index : UInt8) {v : Value}
    (h : f.locals[index.toNat]? = some v) :
    (f.step c offset (Instruction.loadLocal index)).Gives (.ok (.next (f.pushValue v))) := by
  rw [step_loadLocal, Frame.loadLocal, h]
  exact (gives_ofExcept _).map _

/-- The initial value of a type is stored at the address of a local. -/
theorem gives_initobj (c : Context) {f : Frame} (offset : Nat) {index : Nat} {rest : List Slot}
    {t : ValueType} (hstack : f.stack = .localSlot index :: rest)
    (hindex : index < f.locals.length) :
    (f.step c offset ⟨.initobj, .type t⟩).Gives
      (.ok (.next ⟨f.args, f.locals.set index t.initial, rest⟩)) := by
  have hpop : f.pop offset = .ok (.localSlot index, { f with stack := rest }) := by
    rw [Frame.pop, hstack]
  have hstore : Frame.store { f with stack := rest } offset (.localSlot index) t.initial
      = .ok ⟨f.args, f.locals.set index t.initial, rest⟩ := by
    rw [Frame.store]
    exact if_pos hindex
  have hget : (Task.ofExcept (f.pop offset)).Gives
      (.ok (.localSlot index, { f with stack := rest })) := by
    rw [hpop]
    exact gives_ofExcept _
  refine hget.bind_ok ((gives_initial c.resolver t).bind_ok ?_)
  rw [hstore]
  exact (gives_ofExcept _).map _

/-! ### Calls -/

theorem mapM_value? (vs : List Value) : (vs.map Slot.value).mapM Slot.value? = some vs := by
  induction vs with
  | nil => rfl
  | cons v vs ih =>
    rw [List.map_cons, List.mapM_cons, ih]
    rfl

theorem eq_map_of_mapM_value? {slots : List Slot} {vs : List Value}
    (h : slots.mapM Slot.value? = some vs) : slots = vs.map Slot.value := by
  induction slots generalizing vs with
  | nil =>
    cases h
    rfl
  | cons slot slots ih =>
    rw [List.mapM_cons] at h
    obtain ⟨v, hv, h⟩ := Option.bind_eq_some_iff.mp h
    obtain ⟨rest, hrest, h⟩ := Option.bind_eq_some_iff.mp h
    cases h
    cases slot with
    | value w =>
      cases hv
      rw [ih hrest, List.map_cons]
    | argument | localSlot => cases hv

/-- Values that were pushed in order are taken off in order. -/
theorem popValues_append {f : Frame} (offset : Nat) {vs : List Value} {rest : List Slot}
    (hstack : f.stack = (vs.map Slot.value).reverse ++ rest) :
    f.popValues offset vs.length = .ok (vs, { f with stack := rest }) := by
  have hlen : ((vs.map Slot.value).reverse).length = vs.length := by simp
  rw [Frame.popValues, hstack, List.take_left' hlen, List.drop_left' hlen, List.reverse_reverse,
    mapM_value?, if_neg]
  simp

theorem gives_call {f : Frame} (offset : Nat) (callee : Link) (vs : List Value)
    (rest : List Slot) (outcome : List Value → Except RunError Value)
    (hstack : f.stack = (vs.map Slot.value).reverse ++ rest)
    (hlen : vs.length = callee.params.length)
    (hcall : ∀ args, (callee.call args).Gives (outcome args)) :
    (f.call offset callee).Gives (do
      let args ← fitAll Value.asSlot? callee.text 0 callee.params vs
      let result ← outcome args
      return if callee.result = .unit then { f with stack := rest }
        else Frame.pushValue { f with stack := rest } result) := by
  unfold Frame.call
  rw [← hlen, popValues_append offset hstack]
  refine (gives_ofExcept _).bind_ok ?_
  refine (gives_ofExcept _).bind fun args _ => ?_
  exact (hcall args).bind fun result _ => gives_pure _

end CallAdapter.Machine
