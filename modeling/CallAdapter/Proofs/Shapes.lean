import CallAdapter.Proofs.Running
import CallAdapter.Proofs.Slots

/-!
# The shape of the stack depends on the position only

Code is not checked before it runs, so a run may find the stack empty, a value where it needs an
address, or no return at its end. None of this depends on data. The *shape* of a stack says of each
slot whether it holds a value or which address it holds. Code has no jumps, and a call pushes a result
or not by the type that the callee declares, so the shape before an instruction is known from the code
in front of it: `Layout.before` computes it from what callees declare, without running anything.

`Frame.follows` says what one instruction does to a frame, in terms of shapes. If the shape is wrong
the frame raises the same error whatever the values are; if it is right the instruction can only fail
when a value does not fit a slot, or when a callee returns an error.
-/

namespace CallAdapter

namespace Machine

open CallAdapter.Task

/-! ### Shapes -/

/-- What a slot is, apart from the value in it. -/
inductive Shape where
  | value
  | argument (index : Nat)
  | localSlot (index : Nat)
deriving DecidableEq, Repr

def Slot.shape : Slot → Shape
  | .value _ => .value
  | .argument index => .argument index
  | .localSlot index => .localSlot index

def Frame.shape (f : Frame) : List Shape := f.stack.map Slot.shape

structure Face where
  params : List ValueType
  result : ValueType

def Link.face (callee : Link) : Face := ⟨callee.params, callee.result⟩

structure Layout where
  args : Nat
  locals : Nat
  result : ValueType

def Shape.pop (offset : Nat) : List Shape → Except RunError (Shape × List Shape)
  | s :: rest => .ok (s, rest)
  | [] => .error (.stackUnderflow offset)

def Shape.popValues (offset n : Nat) (stack : List Shape) : Except RunError (List Shape) :=
  if stack.length < n then .error (.stackUnderflow offset)
  else if ∀ s ∈ stack.take n, s = .value then .ok (stack.drop n)
  else .error (.badAddress offset)

/-- Pushes a value if it is there. -/
def Shape.load (offset : Nat) (isThere : Prop) [Decidable isThere] (stack : List Shape) :
    Except RunError (List Shape) :=
  if isThere then .ok (.value :: stack) else .error (.badAddress offset)

namespace Layout

def stores (l : Layout) : Shape → Bool
  | .argument index => index < l.args
  | .localSlot index => index < l.locals
  | .value => false

/-- The shape of the stack after a move, which is none after a return. -/
def perform (l : Layout) (offset : Nat) (stack : List Shape) :
    Move Face → Except RunError (Option (List Shape))
  | .stay => .ok (some stack)
  | .loadArgument index => some <$> Shape.load offset (index < l.args) stack
  | .loadLocal index => some <$> Shape.load offset (index < l.locals) stack
  | .push s => .ok (some (s.shape :: stack))
  | .dup => (Shape.pop offset stack).map fun (s, _) => some (s :: stack)
  | .pop => (Shape.pop offset stack).map fun (_, rest) => some rest
  | .init _ => do
    let (s, rest) ← Shape.pop offset stack
    if l.stores s then .ok (some rest) else .error (.badAddress offset)
  | .call callee =>
    (Shape.popValues offset callee.params.length stack).map fun rest =>
      some (if callee.result = .unit then rest else .value :: rest)
  | .ret =>
    if l.result = .unit then .ok none
    else do
      let (s, _) ← Shape.pop offset stack
      if s = .value then .ok none else .error (.badAddress offset)
  | .stuck byte => .error (.unsupportedOpcode offset byte)

/-- The shape of the stack before the instruction with the given index. There is none behind a
return, and none behind an instruction that finds a wrong shape. -/
def before (l : Layout) (code : List (Placed Face)) : Nat → Except RunError (Option (List Shape))
  | 0 => .ok (some [])
  | k + 1 =>
    match l.before code k, code[k]? with
    | .ok (some stack), some p => l.perform p.offset stack p.instruction.move
    | r, _ => r

end Layout

/-! ### How an instruction can fail -/

def Link.answering (call : List Value → Run Value) (callee : Link) : Link := { callee with call }

namespace Frame

/-- The frame itself raises the error at an instruction: it does so whatever its callees answer. -/
def Raises (c : Context) (f : Frame) (p : Placed Link) (e : RunError) : Prop :=
  ∀ call, (f.step c p.offset (p.instruction.map (Link.answering call))).Gives (.error e)

/-- The frame calls a callee at an instruction, and the callee returns the error. -/
def PassesOn (f : Frame) (p : Placed Link) (s : Store) (e : RunError) : Prop :=
  ∃ callee vs rest args, p.instruction.move = .call callee ∧
    f.popValues p.offset callee.params.length = .ok (vs, rest) ∧
    fitAll Value.asSlot? callee.text 0 callee.params vs = .ok args ∧
    ((callee.call args).runOn s).1 = .error e

/-- How an instruction goes in a frame, when the shape of the stack after it is `r`: a wrong shape is
raised, and otherwise the frame goes on with the next shape or returns, unless a value does not fit its
slot or a callee returns an error. -/
inductive Follows (c : Context) (f : Frame) (p : Placed Link) (s : Store) :
    Except RunError (Option (List Shape)) → Prop
  | raises {e : RunError} : f.Raises c p e → Follows c f p s (.error e)
  | misfit {r : Option (List Shape)} {procedure : String} {index : Nat} {t : ValueType}
      {actual : String} : f.Raises c p (.argumentType procedure index t actual) →
      Follows c f p s (.ok r)
  | passesOn {r : Option (List Shape)} {e : RunError} : f.PassesOn p s e → Follows c f p s (.ok r)
  | next {f' : Frame} {s' : Store} :
      (f.step c p.offset p.instruction).runOn s = (.ok (.next f'), s') →
      f'.args.length = f.args.length → f'.locals.length = f.locals.length →
      Follows c f p s (.ok (some f'.shape))
  | done {v : Value} {s' : Store} :
      (f.step c p.offset p.instruction).runOn s = (.ok (.done v), s') → Follows c f p s (.ok none)

def layout (c : Context) (f : Frame) : Layout := ⟨f.args.length, f.locals.length, c.result⟩

variable {c : Context} {f : Frame} {p : Placed Link} {s : Store}

theorem raises_of_perform {e : RunError}
    (h : ∀ call, (f.perform c p.offset (p.instruction.move.map (Link.answering call))).Gives
      (.error e)) : f.Raises c p e := by
  intro call
  rw [step_eq_perform, Instruction.move_map]
  exact h call

theorem exists_answering (i : Instruction Link) : ∃ call, i.map (Link.answering call) = i := by
  obtain ⟨op, operand⟩ := i
  cases operand with
  | method callee => exact ⟨callee.call, rfl⟩
  | _ => exact ⟨fun _ => pure .unit, rfl⟩

theorem Raises.gives {e : RunError} (h : f.Raises c p e) :
    (f.step c p.offset p.instruction).Gives (.error e) := by
  obtain ⟨call, hcall⟩ := exists_answering p.instruction
  have hgives := h call
  rwa [hcall] at hgives

/-- The outcome of an instruction that calls nothing agrees with the shape of the stack after it. -/
inductive Agrees (f : Frame) :
    Except RunError Progress → Except RunError (Option (List Shape)) → Prop
  | raises {e : RunError} : Agrees f (.error e) (.error e)
  | misfit {r : Option (List Shape)} {procedure : String} {index : Nat} {t : ValueType}
      {actual : String} : Agrees f (.error (.argumentType procedure index t actual)) (.ok r)
  | next (f' : Frame) : f'.args.length = f.args.length → f'.locals.length = f.locals.length →
      Agrees f (.ok (.next f')) (.ok (some f'.shape))
  | done {v : Value} : Agrees f (.ok (.done v)) (.ok none)

theorem follows_of_agrees {o : Except RunError Progress} {r : Except RunError (Option (List Shape))}
    (hgives : ∀ call, (f.perform c p.offset (p.instruction.move.map (Link.answering call))).Gives o)
    (h : f.Agrees o r) : Follows c f p s r := by
  have hstep : (f.step c p.offset p.instruction).Gives o := by
    obtain ⟨call, hcall⟩ := exists_answering p.instruction
    rw [step_eq_perform, ← hcall, Instruction.move_map]
    exact hgives call
  cases h with
  | raises => exact .raises (raises_of_perform hgives)
  | misfit => exact .misfit (raises_of_perform hgives)
  | next f' hargs hlocals => exact .next (Prod.ext (hstep s) rfl) hargs hlocals
  | done => exact .done (Prod.ext (hstep s) rfl)

/-! ### One lemma for each kind of move -/

theorem load_agrees {offset index : Nat} {values : List Value} {loaded : Except RunError Frame}
    (hthere : ∀ v, values[index]? = some v → loaded = .ok (f.pushValue v))
    (hmissing : values[index]? = none → loaded = .error (.badAddress offset)) :
    f.Agrees (.next <$> loaded) (some <$> Shape.load offset (index < values.length) f.shape) := by
  unfold Shape.load
  by_cases h : index < values.length
  · rw [if_pos h, hthere _ (List.getElem?_eq_getElem h)]
    exact .next (f.pushValue _) rfl rfl
  · rw [if_neg h, hmissing (List.getElem?_eq_none (Nat.le_of_not_lt h))]
    exact .raises

/-- The top slot, or none, on the stack and in its shape. -/
theorem pop_cases (f : Frame) (offset : Nat) :
    (f.pop offset = .error (.stackUnderflow offset) ∧
      Shape.pop offset f.shape = .error (.stackUnderflow offset)) ∨
    ∃ slot rest, f.stack = slot :: rest ∧
      f.pop offset = .ok (slot, { f with stack := rest }) ∧
      Shape.pop offset f.shape = .ok (slot.shape, rest.map Slot.shape) := by
  unfold pop Frame.shape
  cases f.stack with
  | nil => exact .inl ⟨rfl, rfl⟩
  | cons slot rest => exact .inr ⟨slot, rest, rfl, rfl, rfl⟩

theorem store_agrees (f : Frame) (c : Context) (offset : Nat) (slot : Slot) (rest : List Slot)
    (v : Value) :
    f.Agrees (.next <$> store { f with stack := rest } offset slot v)
      (if (f.layout c).stores slot.shape then .ok (some (rest.map Slot.shape))
        else .error (.badAddress offset)) := by
  cases slot with
  | value w => exact .raises
  | argument index =>
    by_cases h : index < f.args.length
    · simp only [store, Slot.shape, Layout.stores, layout, h, decide_true, if_true]
      exact .next ⟨f.args.set index v, f.locals, rest⟩ (List.length_set ..) rfl
    · simp only [store, Slot.shape, Layout.stores, layout, h, decide_false, if_false]
      exact .raises
  | localSlot index =>
    by_cases h : index < f.locals.length
    · simp only [store, Slot.shape, Layout.stores, layout, h, decide_true, if_true]
      exact .next ⟨f.args, f.locals.set index v, rest⟩ rfl (List.length_set ..)
    · simp only [store, Slot.shape, Layout.stores, layout, h, decide_false, if_false]
      exact .raises

theorem finish_agrees (f : Frame) (c : Context) (offset : Nat) :
    f.Agrees (.done <$> f.finish c offset) ((f.layout c).perform offset f.shape .ret) := by
  unfold finish Layout.perform
  by_cases hunit : c.result = .unit
  · simp only [layout, hunit, if_true]
    exact .done
  · simp only [layout, hunit, if_false, popValue]
    rcases f.pop_cases offset with ⟨hpop, hshape⟩ | ⟨slot, rest, -, hpop, hshape⟩
    · rw [hpop, hshape]
      exact .raises
    · rw [hpop, hshape]
      cases slot with
      | value v =>
        -- The slot of the result may still refuse the value, which its shape does not tell.
        cases hfit : v.asSlot? c.result with
        | some w =>
          simp only [Slot.value?, bind, Except.bind, pure, Except.pure, hfit]
          exact .done
        | none =>
          simp only [Slot.value?, bind, Except.bind, pure, Except.pure, hfit]
          exact .misfit
      | argument index => exact .raises
      | localSlot index => exact .raises

/-- The instructions that call nothing. -/
theorem perform_agrees (c : Context) (f : Frame) (offset : Nat) {m : Move Link}
    (hm : ∀ callee, m ≠ .call callee) :
    ∃ o, (∀ call, (f.perform c offset (m.map (Link.answering call))).Gives o) ∧
      f.Agrees o ((f.layout c).perform offset f.shape (m.map Link.face)) := by
  -- Moves that take something off the stack are split by whether there is something.
  cases m with
  | stay => exact ⟨_, fun _ => gives_pure _, .next f rfl rfl⟩
  | loadArgument index =>
    refine ⟨_, fun _ => (gives_ofExcept _).map _, load_agrees (fun v hv => ?_) fun hnone => ?_⟩
    · rw [loadArgument, hv]
    · rw [loadArgument, hnone]
  | loadLocal index =>
    refine ⟨_, fun _ => (gives_ofExcept _).map _, load_agrees (fun v hv => ?_) fun hnone => ?_⟩
    · rw [loadLocal, hv]
    · rw [loadLocal, hnone]
  | push slot => exact ⟨_, fun _ => gives_pure _, .next (f.push slot) rfl rfl⟩
  | dup =>
    refine ⟨_, fun _ => (gives_ofExcept _).bind fun _ _ => gives_pure _, ?_⟩
    rcases f.pop_cases offset with ⟨hpop, hshape⟩ | ⟨slot, rest, -, hpop, hshape⟩
    · rw [hpop, Move.map, Layout.perform, hshape]
      exact .raises
    · rw [hpop, Move.map, Layout.perform, hshape]
      exact .next (f.push slot) rfl rfl
  | pop =>
    refine ⟨_, fun _ => (gives_ofExcept _).bind fun _ _ => gives_pure _, ?_⟩
    rcases f.pop_cases offset with ⟨hpop, hshape⟩ | ⟨slot, rest, -, hpop, hshape⟩
    · rw [hpop, Move.map, Layout.perform, hshape]
      exact .raises
    · rw [hpop, Move.map, Layout.perform, hshape]
      exact .next { f with stack := rest } rfl rfl
  | init t =>
    refine ⟨_, fun _ => (gives_ofExcept _).bind fun _ _ =>
      (gives_initial c.resolver t).bind_ok ((gives_ofExcept _).map _), ?_⟩
    rcases f.pop_cases offset with ⟨hpop, hshape⟩ | ⟨slot, rest, -, hpop, hshape⟩
    · rw [hpop, Move.map, Layout.perform, hshape]
      exact .raises
    · rw [hpop, Move.map, Layout.perform, hshape]
      exact f.store_agrees c offset slot rest t.initial
  | call callee => exact absurd rfl (hm callee)
  | ret => exact ⟨_, fun _ => (gives_ofExcept _).map _, f.finish_agrees c offset⟩
  | stuck byte => exact ⟨_, fun _ => gives_throw _, .raises⟩

theorem exists_values (slots : List Slot) :
    (∀ s ∈ slots.map Slot.shape, s = .value) ↔ ∃ vs, slots.mapM Slot.value? = some vs := by
  constructor
  · intro h
    induction slots with
    | nil => exact ⟨[], rfl⟩
    | cons slot slots ih =>
      obtain ⟨hslot, hslots⟩ := List.forall_mem_cons.mp h
      obtain ⟨vs, hvs⟩ := ih hslots
      cases slot with
      | value v =>
        rw [List.mapM_cons, hvs]
        exact ⟨v :: vs, rfl⟩
      | argument | localSlot => cases hslot
  · rintro ⟨vs, hvs⟩
    rw [eq_map_of_mapM_value? hvs]
    simp [Slot.shape]

/-- The values on top of the stack, or what is wrong with them, on the stack and in its shape. -/
theorem popValues_cases (f : Frame) (offset n : Nat) :
    (∃ e, f.popValues offset n = .error e ∧ Shape.popValues offset n f.shape = .error e) ∨
    ∃ vs rest, f.popValues offset n = .ok (vs, { f with stack := rest }) ∧
      Shape.popValues offset n f.shape = .ok (rest.map Slot.shape) := by
  -- The values are taken from below to the top, the shapes from the top. It is about all of them.
  have hvalues : (∀ s ∈ f.shape.take n, s = .value) ↔
      ∃ vs, (f.stack.take n).reverse.mapM Slot.value? = some vs := by
    rw [← exists_values, Frame.shape, ← List.map_take]
    simp
  unfold popValues Shape.popValues
  rw [Frame.shape, List.length_map, ← Frame.shape]
  by_cases hlen : f.stack.length < n
  · rw [if_pos hlen, if_pos hlen]
    exact .inl ⟨_, rfl, rfl⟩
  · rw [if_neg hlen, if_neg hlen]
    cases hpop : (f.stack.take n).reverse.mapM Slot.value? with
    | some vs =>
      rw [if_pos (hvalues.mpr ⟨vs, hpop⟩), Frame.shape, ← List.map_drop]
      exact .inr ⟨vs, _, rfl, rfl⟩
    | none =>
      rw [if_neg (by simp [hvalues, hpop])]
      exact .inl ⟨_, rfl, rfl⟩

theorem gives_call_of_popValues {callee : Link} {offset : Nat} {e : RunError}
    (h : f.popValues offset callee.params.length = .error e) :
    (f.call offset callee).Gives (.error e) := by
  intro s
  unfold Frame.call
  simp only [runOn_bind, runOn_ofExcept, h]

theorem gives_call_of_fitAll {callee : Link} {offset : Nat} {vs : List Value} {rest : Frame}
    {e : RunError} (hpop : f.popValues offset callee.params.length = .ok (vs, rest))
    (hfit : fitAll Value.asSlot? callee.text 0 callee.params vs = .error e) :
    (f.call offset callee).Gives (.error e) := by
  intro s
  unfold Frame.call
  simp only [runOn_bind, runOn_ofExcept, hpop, hfit]

/-- A call whose arguments are there and fit does what the callee does. -/
theorem step_call (c : Context) {callee : Link} {vs args : List Value} {rest : Frame}
    (hm : p.instruction.move = .call callee)
    (hpop : f.popValues p.offset callee.params.length = .ok (vs, rest))
    (hfit : fitAll Value.asSlot? callee.text 0 callee.params vs = .ok args) :
    f.step c p.offset p.instruction = (fun v => Progress.next
      (if callee.result = .unit then rest else rest.pushValue v)) <$> callee.call args := by
  have hok {α β : Type} (a : α) (g : α → Run β) : Task.ofExcept (.ok a) >>= g = g a := rfl
  rw [step_eq_perform, hm, Frame.perform, Frame.call, hpop, hok]
  show Progress.next <$> (Task.ofExcept (fitAll Value.asSlot? callee.text 0 callee.params vs) >>= _) = _
  rw [hfit, hok, bind_pure_comp, Functor.map_map]

/-- A call raises what the slots of its parameters make of the values on the stack, and nothing else. -/
theorem raises_call_iff {callee : Link} {vs : List Value} {rest : Frame} {e : RunError}
    (hm : p.instruction.move = .call callee)
    (hpop : f.popValues p.offset callee.params.length = .ok (vs, rest)) :
    f.Raises c p e ↔ fitAll Value.asSlot? callee.text 0 callee.params vs = .error e := by
  cases hfit : fitAll Value.asSlot? callee.text 0 callee.params vs with
  | error e' =>
    have hraises : f.Raises c p e' := by
      refine raises_of_perform fun call => ?_
      have hcall : (f.call p.offset (callee.answering call)).Gives (.error e') :=
        gives_call_of_fitAll hpop hfit
      rw [hm]
      exact hcall.map _
    constructor
    · intro h
      have hsame := (hraises.gives .empty).symm.trans (h.gives .empty)
      rw [Except.error.inj hsame]
    · intro h
      cases h
      exact hraises
  | ok args =>
    constructor
    · -- The callee could answer, and then nothing would be raised.
      intro h
      have hm' : (p.map (Link.answering fun _ => pure .unit)).instruction.move
          = .call (callee.answering fun _ => pure .unit) := by
        rw [Placed.map, Instruction.move_map, hm]
        rfl
      have hother := h (fun _ => pure .unit) .empty
      cases (congrArg (fun x => (runOn x .empty).1) (step_call c hm' hpop hfit)).symm.trans hother
    · intro h
      cases h

/-- The calls. Nothing is looked at in the values before all of them are there. -/
theorem follows_call {callee : Link} (hm : p.instruction.move = .call callee) :
    Follows c f p s ((f.layout c).perform p.offset f.shape (.call callee.face)) := by
  rcases f.popValues_cases p.offset callee.params.length with
    ⟨e, hpop, hshape⟩ | ⟨vs, rest, hpop, hshape⟩
  · rw [Layout.perform, Link.face, hshape]
    refine .raises (raises_of_perform fun call => ?_)
    have hcall : (f.call p.offset (callee.answering call)).Gives (.error e) :=
      gives_call_of_popValues hpop
    rw [hm]
    exact hcall.map _
  · rw [Layout.perform, Link.face, hshape]
    -- The shapes are right. Now the values decide, and after them the callee.
    cases hfit : fitAll Value.asSlot? callee.text 0 callee.params vs with
    | error e =>
      obtain ⟨index, t, actual, rfl⟩ := exists_of_fitAll_error hfit
      exact .misfit ((raises_call_iff hm hpop).mpr hfit)
    | ok args =>
      rcases hcall : (callee.call args).runOn s with ⟨e | v, s'⟩
      · exact .passesOn ⟨callee, vs, _, args, hm, hpop, hfit, congrArg Prod.fst hcall⟩
      · have hstep := congrArg (runOn · s) (step_call c hm hpop hfit)
        simp only [runOn_map, hcall] at hstep
        by_cases hunit : callee.result = .unit
        · simp only [hunit, if_true] at hstep ⊢
          exact .next hstep rfl rfl
        · simp only [hunit, if_false] at hstep ⊢
          exact .next hstep rfl rfl

/-- What an instruction does depends on the shape of the stack alone, until a value or a callee
fails it. -/
theorem follows (c : Context) (f : Frame) (p : Placed Link) (s : Store) :
    Follows c f p s ((f.layout c).perform p.offset f.shape (p.instruction.move.map Link.face)) := by
  by_cases hcall : ∃ callee, p.instruction.move = .call callee
  · obtain ⟨callee, hm⟩ := hcall
    rw [hm]
    exact follows_call hm
  · obtain ⟨o, hgives, hagrees⟩ := f.perform_agrees c p.offset (not_exists.mp hcall)
    exact follows_of_agrees hgives hagrees

theorem PassesOn.runOn_step {e : RunError} (h : f.PassesOn p s e) (c : Context) :
    ((f.step c p.offset p.instruction).runOn s).1 = .error e := by
  obtain ⟨callee, vs, rest, args, hm, hpop, hfit, hcall⟩ := h
  rw [step_call c hm hpop hfit, runOn_map, hcall]
  rfl

/-- An instruction that goes on to another frame has found the right shape, and leaves the next. -/
theorem Follows.of_next {r : Except RunError (Option (List Shape))} {f' : Frame} {s' : Store}
    (h : Follows c f p s r)
    (hstep : (f.step c p.offset p.instruction).runOn s = (.ok (.next f'), s')) :
    f'.args.length = f.args.length ∧ f'.locals.length = f.locals.length ∧
      r = .ok (some f'.shape) := by
  have hout : ((f.step c p.offset p.instruction).runOn s).1 = .ok (.next f') := by rw [hstep]
  cases h with
  | raises he => cases (he.gives s).symm.trans hout
  | misfit he => cases (he.gives s).symm.trans hout
  | passesOn he => cases (he.runOn_step c).symm.trans hout
  | next hnext hargs hlocals =>
    cases hnext.symm.trans hstep
    exact ⟨hargs, hlocals, rfl⟩
  | done hdone => cases hdone.symm.trans hstep

/-- An error that a frame raises is the wrong shape, or a value that does not fit. -/
theorem Follows.of_raises {r : Except RunError (Option (List Shape))} {e : RunError}
    (h : Follows c f p s r) (he : f.Raises c p e) :
    r = .error e ∨ ∃ procedure index t actual, e = .argumentType procedure index t actual := by
  have hout := he.gives s
  cases h with
  | raises he' =>
    cases (he'.gives s).symm.trans hout
    exact .inl rfl
  | misfit he' =>
    cases (he'.gives s).symm.trans hout
    exact .inr ⟨_, _, _, _, rfl⟩
  | passesOn he' =>
    obtain ⟨callee, vs, rest, args, hm, hpop, hfit, -⟩ := he'
    cases hfit.symm.trans ((raises_call_iff hm hpop).mp he)
  | next hnext => cases hout.symm.trans (congrArg Prod.fst hnext)
  | done hdone => cases hout.symm.trans (congrArg Prod.fst hdone)

end Frame

end Machine

end CallAdapter
