import CallAdapter.Proofs.Executions

/-!
# The same code at other offsets

Code is run in sequence, so an instruction sees where it stands only if it has to say so in an error.
What the frame makes of an instruction at one offset, it makes of an instruction that does the same at
another offset, with the offset in its errors replaced (`exists_perform`). What a callee answers has
nothing to do with the offset of the call.

Two runs mirror each other if their instructions do the same one by one, whatever the offsets
(`Execution.Mirrors`). They get equally far with equal frames (`Mirrors.reaches`), and they end alike
(`Mirrors.outcome_cases`).
-/

namespace CallAdapter

/-- The error at another offset, if it has an offset at all. -/
def RunError.withOffset (e : RunError) (offset : Nat) : RunError :=
  match e with
  | .stackUnderflow _ => .stackUnderflow offset
  | .badAddress _ => .badAddress offset
  | .badToken _ token => .badToken offset token
  | .unsupportedOpcode _ byte => .unsupportedOpcode offset byte
  | .truncated _ => .truncated offset
  | .missingReturn _ => .missingReturn offset
  | e => e

def displace {α : Type} (offset : Nat) (r : Except RunError α) : Except RunError α :=
  r.mapError (·.withOffset offset)

theorem displace_bind {α β : Type} (offset : Nat) (r : Except RunError α)
    (f : α → Except RunError β) :
    displace offset (r >>= f) = displace offset r >>= fun a => displace offset (f a) := by
  cases r <;> rfl

theorem displace_map {α β : Type} (offset : Nat) (r : Except RunError α) (f : α → β) :
    displace offset (f <$> r) = f <$> displace offset r := by
  cases r <;> rfl

namespace Machine

open CallAdapter.Task

/-! ### One instruction -/

namespace Frame

section Parts

variable (f : Frame) (offset offset' : Nat)

theorem pop_displace : f.pop offset' = displace offset' (f.pop offset) := by
  unfold pop
  cases f.stack <;> rfl

theorem popValue_displace : f.popValue offset' = displace offset' (f.popValue offset) := by
  unfold popValue pop
  cases f.stack with
  | nil => rfl
  | cons slot rest => cases slot <;> rfl

theorem popValues_displace (n : Nat) :
    f.popValues offset' n = displace offset' (f.popValues offset n) := by
  unfold popValues
  split
  · rfl
  · split <;> rfl

theorem loadArgument_displace (index : Nat) :
    f.loadArgument offset' index = displace offset' (f.loadArgument offset index) := by
  unfold loadArgument
  split <;> rfl

theorem loadLocal_displace (index : Nat) :
    f.loadLocal offset' index = displace offset' (f.loadLocal offset index) := by
  unfold loadLocal
  split <;> rfl

theorem store_displace (slot : Slot) (v : Value) :
    f.store offset' slot v = displace offset' (f.store offset slot v) := by
  unfold store
  cases slot with
  | value => rfl
  | argument index | localSlot index =>
    dsimp only
    split <;> rfl

theorem finish_displace {c c' : Context} (hprocedure : c'.procedure = c.procedure)
    (hresult : c'.result = c.result) :
    f.finish c' offset' = displace offset' (f.finish c offset) := by
  unfold finish
  rw [hprocedure, hresult]
  split
  · rfl
  · rw [popValue_displace f offset offset', displace_bind]
    congr 1
    funext ⟨v, rest⟩
    cases hv : v.asSlot? c.result <;> simp only [hv] <;> rfl

end Parts

variable {c c' : Context} {f : Frame} {p p' : Placed Link} {s s' : Store} {e : RunError}

/-- The instructions that call nothing have the same outcome at every offset, up to the offset in an
error. -/
theorem exists_perform (hprocedure : c'.procedure = c.procedure) (hresult : c'.result = c.result)
    (f : Frame) (offset offset' : Nat) {m : Move Link} (hm : ∀ callee, m ≠ .call callee) :
    ∃ r, (f.perform c offset m).Gives r ∧ (f.perform c' offset' m).Gives (displace offset' r) := by
  -- The outcome is the one at the first offset; each part of a move commutes with displacement.
  cases m with
  | stay => exact ⟨_, gives_pure _, gives_pure _⟩
  | loadArgument index =>
    refine ⟨_, (gives_ofExcept _).map _, ?_⟩
    rw [displace_map, ← loadArgument_displace]
    exact (gives_ofExcept _).map _
  | loadLocal index =>
    refine ⟨_, (gives_ofExcept _).map _, ?_⟩
    rw [displace_map, ← loadLocal_displace]
    exact (gives_ofExcept _).map _
  | push slot => exact ⟨_, gives_pure _, gives_pure _⟩
  | dup | pop =>
    refine ⟨_, (gives_ofExcept _).bind fun _ _ => gives_pure _, ?_⟩
    rw [displace_bind, ← pop_displace]
    exact (gives_ofExcept _).bind fun _ _ => gives_pure _
  | init t =>
    refine ⟨_, (gives_ofExcept _).bind fun _ _ =>
      (gives_initial c.resolver t).bind_ok ((gives_ofExcept _).map _), ?_⟩
    rw [displace_bind, ← pop_displace]
    refine (gives_ofExcept _).bind fun a _ => (gives_initial c'.resolver t).bind_ok ?_
    rw [displace_map, ← store_displace]
    exact (gives_ofExcept _).map _
  | call callee => exact absurd rfl (hm callee)
  | ret =>
    refine ⟨_, (gives_ofExcept _).map _, ?_⟩
    rw [displace_map, ← f.finish_displace offset offset' hprocedure hresult]
    exact (gives_ofExcept _).map _
  | stuck byte => exact ⟨_, gives_throw _, gives_throw _⟩

theorem Raises.unique {e' : RunError} (h : f.Raises c p e) (h' : f.Raises c p e') : e = e' :=
  Except.error.inj ((h.gives .empty).symm.trans (h'.gives .empty))

/-- A call raises an error if there are not enough values, or if one of them does not fit. -/
theorem raises_call_cases {callee : Link} (hm : p.instruction.move = .call callee) :
    f.Raises c p e ↔ f.popValues p.offset callee.params.length = .error e ∨
      ∃ vs rest, f.popValues p.offset callee.params.length = .ok (vs, rest) ∧
        fitAll Value.asSlot? callee.text 0 callee.params vs = .error e := by
  cases hpop : f.popValues p.offset callee.params.length with
  | error e₀ =>
    have hraises : f.Raises c p e₀ := by
      refine raises_of_perform fun call => ?_
      have hcall : (f.call p.offset (callee.answering call)).Gives (.error e₀) :=
        gives_call_of_popValues hpop
      rw [hm]
      exact hcall.map _
    -- A frame raises one error at most, so that too few values rule the other case out.
    constructor
    · intro h
      rw [hraises.unique h]
      exact .inl rfl
    · rintro (hsame | ⟨vs, rest, hok, -⟩)
      · cases hsame
        exact hraises
      · cases hok
  | ok out =>
    obtain ⟨vs, rest⟩ := out
    rw [raises_call_iff hm hpop]
    constructor
    · intro h
      exact .inr ⟨vs, rest, rfl, h⟩
    · rintro (herror | ⟨vs', rest', hsame, h⟩)
      · cases herror
      · cases hsame
        exact h

/-- What is raised at an instruction is raised where another one does the same. -/
theorem Raises.displaced (hprocedure : c'.procedure = c.procedure) (hresult : c'.result = c.result)
    (hmove : p'.instruction.move = p.instruction.move) (h : f.Raises c p e) :
    f.Raises c' p' (e.withOffset p'.offset) := by
  by_cases hcall : ∃ callee, p.instruction.move = .call callee
  · obtain ⟨callee, hm⟩ := hcall
    rw [raises_call_cases (hmove.trans hm), f.popValues_displace p.offset p'.offset]
    rcases (raises_call_cases hm).mp h with hpop | ⟨vs, rest, hpop, hfit⟩
    · rw [hpop]
      exact .inl rfl
    · obtain ⟨index, t, actual, rfl⟩ := exists_of_fitAll_error hfit
      rw [hpop]
      exact .inr ⟨vs, rest, rfl, hfit⟩
  · refine raises_of_perform fun call => ?_
    have hm : ∀ callee, p.instruction.move.map (Link.answering call) ≠ .call callee := by
      intro callee hcallee
      obtain ⟨c, hc, -⟩ := Move.exists_of_map_eq_call hcallee
      exact hcall ⟨c, hc⟩
    obtain ⟨r, hr, hr'⟩ := exists_perform hprocedure hresult f p.offset p'.offset hm
    have hraised := h call
    rw [step_eq_perform, Instruction.move_map] at hraised
    obtain rfl : r = .error e := (hr .empty).symm.trans (hraised .empty)
    rw [hmove]
    exact hr'

/-- A call at another offset passes on the same error, if its callee does not look at the store. -/
theorem PassesOn.displaced (hmove : p'.instruction.move = p.instruction.move)
    (hsettled : OperandSettled p.instruction.operand) (h : f.PassesOn p s e) (s' : Store) :
    f.PassesOn p' s' e := by
  obtain ⟨callee, vs, rest, args, hm, hpop, hfit, hcall⟩ := h
  refine ⟨callee, vs, rest, args, hmove.trans hm, ?_, hfit, ?_⟩
  · rw [f.popValues_displace p.offset p'.offset, hpop]
    rfl
  · have hcallee := hsettled callee (Instruction.operand_of_move hm) args
    rw [hcallee.gives_runOn s s', hcall]

/-- What succeeds at an instruction succeeds where another one does the same. -/
theorem step_displaced (hprocedure : c'.procedure = c.procedure) (hresult : c'.result = c.result)
    (hmove : p'.instruction.move = p.instruction.move)
    (hsettled : OperandSettled p.instruction.operand) {progress : Progress}
    (h : ((f.step c p.offset p.instruction).runOn s).1 = .ok progress) (s' : Store) :
    ((f.step c' p'.offset p'.instruction).runOn s').1 = .ok progress := by
  by_cases hcall : ∃ callee, p.instruction.move = .call callee
  · obtain ⟨callee, hm⟩ := hcall
    -- The values are there and fit, since the call has been made.
    cases hpop : f.popValues p.offset callee.params.length with
    | error e =>
      have hraises : f.Raises c p e := (raises_call_cases hm).mpr (.inl hpop)
      cases (hraises.gives s).symm.trans h
    | ok out =>
      obtain ⟨vs, rest⟩ := out
      cases hfit : fitAll Value.asSlot? callee.text 0 callee.params vs with
      | error e =>
        have hraises : f.Raises c p e := (raises_call_cases hm).mpr (.inr ⟨vs, rest, hpop, hfit⟩)
        cases (hraises.gives s).symm.trans h
      | ok args =>
        have hpop' : f.popValues p'.offset callee.params.length = .ok (vs, rest) := by
          rw [f.popValues_displace p.offset p'.offset, hpop]
          rfl
        have hcallee := hsettled callee (Instruction.operand_of_move hm) args
        rw [step_call c hm hpop hfit, runOn_map] at h
        rw [step_call c' (hmove.trans hm) hpop' hfit, runOn_map, hcallee.gives_runOn s s']
        exact h
  · obtain ⟨r, hr, hr'⟩ := exists_perform hprocedure hresult f p.offset p'.offset
      (not_exists.mp hcall)
    rw [step_eq_perform] at h
    obtain rfl : r = .ok progress := (hr s).symm.trans h
    rw [step_eq_perform, hmove]
    exact hr' s'

end Frame

/-! ### Runs -/

namespace Execution

variable {x y : Execution} {k : Nat} {f f' : Frame} {s s' : Store} {p : Placed Link} {e : RunError}

/-- A run of code whose instructions do the same one by one, at whatever offsets. The callees of both do
not look at the store. -/
structure Mirrors (x y : Execution) : Prop where
  procedure_eq : y.context.procedure = x.context.procedure
  result_eq : y.context.result = x.context.result
  args_eq : y.args = x.args
  locals_eq : y.locals = x.locals
  moves_eq : y.code.map (·.instruction.move) = x.code.map (·.instruction.move)
  settled : ∀ p ∈ x.code, OperandSettled p.instruction.operand

theorem Mirrors.length_eq (h : x.Mirrors y) : y.code.length = x.code.length := by
  simpa using congrArg List.length h.moves_eq

theorem Mirrors.exists_placed (h : x.Mirrors y) (hp : x.code[k]? = some p) :
    ∃ p', y.code[k]? = some p' ∧ p'.instruction.move = p.instruction.move := by
  have hmove := congrArg (·[k]?) h.moves_eq
  simp only [List.getElem?_map, hp, Option.map_some] at hmove
  exact Option.map_eq_some_iff.mp hmove

/-- The mirror gets equally far, with the same frame. -/
theorem Mirrors.reaches (h : x.Mirrors y) (hx : x.Reaches k f s) : ∃ s', y.Reaches k f s' := by
  induction k generalizing f s with
  | zero =>
    obtain ⟨s₀, h₀⟩ := x.exists_reaches_zero
    cases hx.2.symm.trans h₀.2
    rw [← h.args_eq, ← h.locals_eq]
    exact y.exists_reaches_zero
  | succ k ih =>
    obtain ⟨g, t, p, hg, hp, hstep⟩ := hx.of_succ
    obtain ⟨t', hg'⟩ := ih hg
    obtain ⟨p', hp', hmove⟩ := h.exists_placed hp
    have hstep' := Frame.step_displaced h.procedure_eq h.result_eq hmove
      (h.settled p (List.mem_of_getElem? hp)) (congrArg Prod.fst hstep) t'
    exact ⟨_, hg'.succ hp' (Prod.ext hstep' rfl)⟩

/-- A run has a last position. -/
theorem exists_last (x : Execution) :
    ∃ k f s, x.Reaches k f s ∧ ∀ f' s', ¬ x.Reaches (k + 1) f' s' := by
  by_contra hnone
  have hall : ∀ k, ∃ f s, x.Reaches k f s := by
    intro k
    induction k with
    | zero => exact ⟨_, x.exists_reaches_zero⟩
    | succ k ih =>
      obtain ⟨f, s, hf⟩ := ih
      by_contra hstops
      exact hnone ⟨k, f, s, hf, fun f' s' hf' => hstops ⟨f', s', hf'⟩⟩
  obtain ⟨f, s, hf⟩ := hall (x.code.length + 1)
  exact absurd hf.1 (Nat.not_succ_le_self _)

theorem Reaches.raises_missing (h : x.Reaches x.code.length f s) :
    x.Raises x.code.length (.missingReturn (lastOffset x.code)) :=
  ⟨h.outcome_of_length, f, s, h, .inr ⟨rfl, rfl⟩⟩

/-- The mirror ends in the same way, or both raise an error in their own frames, at the same
instruction and the same up to its offset. -/
theorem Mirrors.outcome_cases (h : x.Mirrors y) :
    y.outcome = x.outcome ∨
      ∃ k e offset, x.Raises k e ∧ y.Raises k (e.withOffset offset) := by
  -- Both runs are compared at the last instruction that the first one reaches.
  obtain ⟨k, f, s, hx, hlast⟩ := x.exists_last
  obtain ⟨s', hy⟩ := h.reaches hx
  rcases Nat.lt_or_eq_of_le hx.1 with hlt | rfl
  · have hp : x.code[k]? = some (x.code[k]) := List.getElem?_eq_getElem hlt
    obtain ⟨p', hp', hmove⟩ := h.exists_placed hp
    have hsettled := h.settled _ (List.mem_of_getElem? hp)
    have hraises {e : RunError} (he : f.Raises x.context (x.code[k]) e) :
        ∃ k e offset, x.Raises k e ∧ y.Raises k (e.withOffset offset) :=
      ⟨k, e, p'.offset, hx.raises hp he,
        hy.raises hp' (he.displaced h.procedure_eq h.result_eq hmove)⟩
    have hfollows := hx.follows hp
    generalize x.layout.before x.faces (k + 1) = r at hfollows
    cases hfollows with
    | raises he => exact .inr (hraises he)
    | misfit he => exact .inr (hraises he)
    | passesOn he =>
      left
      rw [(hx.passesOn hp he).1, (hy.passesOn hp' (he.displaced hmove hsettled s')).1]
    | next hstep => exact absurd (hx.succ hp hstep) (hlast _ _)
    | done hstep =>
      have hstep' := Frame.step_displaced h.procedure_eq h.result_eq hmove hsettled
        (congrArg Prod.fst hstep) s'
      left
      rw [hx.outcome_of_done hp hstep, hy.outcome_of_done hp' (Prod.ext hstep' rfl)]
  · rw [← h.length_eq] at hy
    refine .inr ⟨_, _, lastOffset y.code, hx.raises_missing, ?_⟩
    rw [← h.length_eq]
    exact hy.raises_missing

end Execution

end Machine

end CallAdapter
