import CallAdapter.Proofs.Shapes

/-!
# Two runs of the same code

An `Execution` is one run of `execute`: the code with its callees, the arguments and the store. Runs
are compared position by position: `Reaches x k f s` says that `x` gets as far as the instruction
with index `k` and has the frame `f` and the store `s` there. A run that ends in an error either raises
it in its own frame or passes on the error of a callee (`exists_cause`).

A run has the shape that `Layout.before` computes wherever it gets (`Reaches.shape`), and it gets
wherever there is a shape unless a value or a callee stops it (`exists_reaches`). Two runs of one body
have the same layout and the same callees in it, up to what those answer, so that `shape_of_position`
is about any two of them.
-/

namespace CallAdapter

/-- The error of a run that finds no slot, no value or no address where it needs one, or no return. -/
def RunError.isStructural : RunError → Bool
  | .stackUnderflow _ | .badAddress _ | .missingReturn _ => true
  | _ => false

def Callee.face (callee : Callee) : Machine.Face := ⟨callee.params, callee.result⟩

namespace Machine

open CallAdapter.Task

structure Execution where
  context : Context
  code : List (Placed Link)
  locals : List ValueType
  args : List Value
  store : Store

namespace Execution

variable {x y : Execution} {k : Nat} {f f' : Frame} {s s' : Store} {p : Placed Link} {e : RunError}

def outcome (x : Execution) : Except RunError Value :=
  ((execute x.context x.code x.locals x.args).runOn x.store).1

/-- The run of the first `k` instructions. -/
def upTo (x : Execution) (k : Nat) : Run Progress := do
  let zeros ← x.locals.mapM (Task.initial x.context.resolver)
  steps x.context (x.code.take k) ⟨x.args, zeros, []⟩

/-- The run gets to the instruction with index `k`, or to the end of the code if that is `k`, and has
this frame and this store there. -/
def Reaches (x : Execution) (k : Nat) (f : Frame) (s : Store) : Prop :=
  k ≤ x.code.length ∧ (x.upTo k).runOn x.store = (.ok (.next f), s)

/-- The run ends with an error of its own frame at index `k`: the error of an instruction, whatever
callees answer, or the missing return at the end. -/
def Raises (x : Execution) (k : Nat) (e : RunError) : Prop :=
  x.outcome = .error e ∧ ∃ f s, x.Reaches k f s ∧
    ((∃ p, x.code[k]? = some p ∧ f.Raises x.context p e) ∨
      (k = x.code.length ∧ e = .missingReturn (lastOffset x.code)))

/-- The run ends with the error that the callee at index `k` has returned. -/
def PassesOn (x : Execution) (k : Nat) (e : RunError) : Prop :=
  x.outcome = .error e ∧ ∃ f s p, x.Reaches k f s ∧ x.code[k]? = some p ∧ f.PassesOn p s e

/-! ### From one instruction to the next -/

def resume (c : Context) (code : List (Placed Link)) : Progress → Run Progress
  | .next f => steps c code f
  | .done v => return .done v

theorem upTo_add (x : Execution) (k n : Nat) :
    x.upTo (k + n) = x.upTo k >>= resume x.context ((x.code.drop k).take n) := by
  simp only [upTo, List.take_add, steps_append, bind_assoc]
  rfl

def close (code : List (Placed Link)) : Progress → Run Value
  | .done v => return v
  | .next _ => throw (.missingReturn (lastOffset code))

/-- From any position on, the rest of the code decides. -/
theorem execute_eq (x : Execution) {k : Nat} (hk : k ≤ x.code.length) :
    execute x.context x.code x.locals x.args
      = x.upTo k >>= resume x.context (x.code.drop k) >>= close x.code := by
  have hwhole : execute x.context x.code x.locals x.args
      = x.upTo x.code.length >>= close x.code := by
    simp only [execute, run, upTo, List.take_length, bind_assoc]
    rfl
  have hadd := x.upTo_add k (x.code.length - k)
  rw [Nat.add_sub_cancel' hk, List.take_of_length_le (by simp)] at hadd
  rw [hwhole, hadd]

theorem Reaches.outcome_eq (h : x.Reaches k f s) :
    x.outcome = ((steps x.context (x.code.drop k) f >>= close x.code).runOn s).1 := by
  rw [outcome, x.execute_eq h.1, bind_assoc, runOn_bind, h.2]
  rfl

/-- An instruction that fails ends the run. -/
theorem Reaches.outcome_of_step (h : x.Reaches k f s) (hp : x.code[k]? = some p)
    (hstep : ((f.step x.context p.offset p.instruction).runOn s).1 = .error e) :
    x.outcome = .error e := by
  obtain ⟨hlt, rfl⟩ := List.getElem?_eq_some_iff.mp hp
  rw [h.outcome_eq, List.drop_eq_getElem_cons hlt, steps, bind_assoc, runOn_bind]
  rcases hrun : (f.step x.context _ _).runOn s with ⟨e' | progress, s'⟩
  · rw [hrun] at hstep
    cases hstep
    rfl
  · rw [hrun] at hstep
    cases hstep

theorem Reaches.outcome_of_done (h : x.Reaches k f s) (hp : x.code[k]? = some p) {v : Value}
    (hstep : (f.step x.context p.offset p.instruction).runOn s = (.ok (.done v), s')) :
    x.outcome = .ok v := by
  obtain ⟨hlt, rfl⟩ := List.getElem?_eq_some_iff.mp hp
  rw [h.outcome_eq, List.drop_eq_getElem_cons hlt, steps, bind_assoc, runOn_bind, hstep]
  rfl

theorem Reaches.outcome_of_length (h : x.Reaches x.code.length f s) :
    x.outcome = .error (.missingReturn (lastOffset x.code)) := by
  rw [h.outcome_eq, List.drop_length]
  rfl

theorem Reaches.raises (h : x.Reaches k f s) (hp : x.code[k]? = some p)
    (he : f.Raises x.context p e) : x.Raises k e :=
  ⟨h.outcome_of_step hp (he.gives s), f, s, h, .inl ⟨p, hp, he⟩⟩

theorem Reaches.passesOn (h : x.Reaches k f s) (hp : x.code[k]? = some p)
    (he : f.PassesOn p s e) : x.PassesOn k e :=
  ⟨h.outcome_of_step hp (he.runOn_step x.context), f, s, p, h, hp, he⟩

theorem exists_reaches_zero (x : Execution) :
    ∃ s, x.Reaches 0 ⟨x.args, x.locals.map ValueType.initial, []⟩ s := by
  have hzeros := gives_mapM (gives_initial (ε := RunError) x.context.resolver) x.locals x.store
  rcases hrun : (x.locals.mapM (Task.initial x.context.resolver)).runOn x.store with ⟨r, s⟩
  rw [hrun] at hzeros
  cases hzeros
  refine ⟨s, Nat.zero_le _, ?_⟩
  rw [upTo, runOn_bind, hrun]
  rfl

theorem Reaches.succ (h : x.Reaches k f s) (hp : x.code[k]? = some p)
    (hstep : (f.step x.context p.offset p.instruction).runOn s = (.ok (.next f'), s')) :
    x.Reaches (k + 1) f' s' := by
  obtain ⟨hlt, rfl⟩ := List.getElem?_eq_some_iff.mp hp
  refine ⟨hlt, ?_⟩
  rw [upTo_add, runOn_bind, h.2, List.drop_eq_getElem_cons hlt]
  show (steps _ [_] _).runOn s = _
  rw [steps, runOn_bind, hstep]
  rfl

theorem Reaches.of_succ (h : x.Reaches (k + 1) f' s') :
    ∃ f s p, x.Reaches k f s ∧ x.code[k]? = some p ∧
      (f.step x.context p.offset p.instruction).runOn s = (.ok (.next f'), s') := by
  obtain ⟨hlt, hrun⟩ := h
  rw [upTo_add, runOn_bind] at hrun
  rcases hk : (x.upTo k).runOn x.store with ⟨e | f | v, s⟩
  · rw [hk] at hrun
    cases hrun
  · rw [hk, List.drop_eq_getElem_cons hlt] at hrun
    refine ⟨f, s, _, ⟨Nat.le_of_succ_le hlt, hk⟩, List.getElem?_eq_getElem hlt, ?_⟩
    change (steps _ [_] _).runOn s = _ at hrun
    rw [steps, runOn_bind] at hrun
    rcases hstep : (f.step x.context _ _).runOn s with ⟨e | f₁ | v, s₁⟩
    all_goals
      rw [hstep] at hrun
      cases hrun
    rfl
  · rw [hk] at hrun
    cases hrun

/-- A run that has got somewhere has been everywhere in front of it. -/
theorem Reaches.earlier (h : x.Reaches k f s) {j : Nat} (hj : j ≤ k) :
    ∃ f' s', x.Reaches j f' s' := by
  induction k generalizing f s with
  | zero =>
    obtain rfl := Nat.le_zero.mp hj
    exact ⟨f, s, h⟩
  | succ k ih =>
    rcases Nat.lt_or_eq_of_le hj with hlt | rfl
    · obtain ⟨f', s', p, hk, -, -⟩ := h.of_succ
      exact ih hk (Nat.le_of_lt_succ hlt)
    · exact ⟨f, s, h⟩

/-- A run does not get past an error of its own. -/
theorem Reaches.le_of_raises {j : Nat} (h : x.Reaches j f s) (hraises : x.Raises k e) : j ≤ k := by
  by_contra hlt
  obtain ⟨f', s', hnext⟩ := h.earlier (Nat.lt_of_not_le hlt)
  obtain ⟨g, t, p, hg, hp, hstep⟩ := hnext.of_succ
  obtain ⟨-, g', t', hg', ⟨p', hp', he⟩ | ⟨hk, -⟩⟩ := hraises
  · cases hg.2.symm.trans hg'.2
    cases hp.symm.trans hp'
    cases (he.gives t).symm.trans (congrArg Prod.fst hstep)
  · have hk' := (List.getElem?_eq_some_iff.mp hp).1
    omega

/-- A run gets behind the code in front, if running that goes on to a frame. -/
theorem exists_reaches_of_steps (x : Execution) {front back : List (Placed Link)}
    (hcode : x.code = front ++ back)
    (hsteps : (steps x.context front ⟨x.args, x.locals.map ValueType.initial, []⟩).Gives
      (.ok (.next f))) : ∃ s, x.Reaches front.length f s := by
  have hupTo : (x.upTo front.length).Gives (.ok (.next f)) := by
    rw [upTo, hcode, List.take_left' rfl]
    exact (gives_mapM (gives_initial x.context.resolver) x.locals).bind_ok hsteps
  refine ⟨((x.upTo front.length).runOn x.store).2, ?_, Prod.ext (hupTo x.store) rfl⟩
  rw [hcode, List.length_append]
  exact Nat.le_add_right _ _

/-! ### Shapes along a run -/

/-- The layout of the run. -/
def layout (x : Execution) : Layout := ⟨x.args.length, x.locals.length, x.context.result⟩

def faces (x : Execution) : List (Placed Face) := x.code.map (Placed.map Link.face)

theorem before_succ (hp : x.code[k]? = some p) {stack : List Shape}
    (h : x.layout.before x.faces k = .ok (some stack)) :
    x.layout.before x.faces (k + 1)
      = x.layout.perform p.offset stack (p.instruction.move.map Link.face) := by
  rw [Layout.before, h, faces, List.getElem?_map, hp, ← Instruction.move_map]
  rfl

theorem exists_before_of_succ {stack : List Shape}
    (h : x.layout.before x.faces (k + 1) = .ok (some stack)) :
    ∃ before, x.layout.before x.faces k = .ok (some before) := by
  rw [Layout.before] at h
  split at h
  · exact ⟨_, by assumption⟩
  · exact ⟨stack, h⟩

/-- In a frame of the right shape, an instruction leaves the shape for the position behind it. -/
theorem follows_before (hlayout : f.layout x.context = x.layout)
    (hbefore : x.layout.before x.faces k = .ok (some f.shape)) (hp : x.code[k]? = some p)
    (s : Store) : f.Follows x.context p s (x.layout.before x.faces (k + 1)) := by
  rw [before_succ hp hbefore, ← hlayout]
  exact Frame.follows x.context f p s

/-- Wherever a run gets, its stack has the shape that is computed for the position, and there are as
many arguments and locals as before. -/
theorem Reaches.shape (h : x.Reaches k f s) :
    f.layout x.context = x.layout ∧ x.layout.before x.faces k = .ok (some f.shape) := by
  induction k generalizing f s with
  | zero =>
    obtain ⟨s₀, h₀⟩ := x.exists_reaches_zero
    have hsame := h.2.symm.trans h₀.2
    cases hsame
    exact ⟨by simp [Frame.layout, layout], rfl⟩
  | succ k ih =>
    obtain ⟨g, t, p, hg, hp, hstep⟩ := h.of_succ
    obtain ⟨hlayout, hbefore⟩ := ih hg
    obtain ⟨hargs, hlocals, hshape⟩ := (follows_before hlayout hbefore hp t).of_next hstep
    refine ⟨?_, hshape⟩
    rw [← hlayout, Frame.layout, Frame.layout, hargs, hlocals]

theorem Reaches.follows (h : x.Reaches k f s) (hp : x.code[k]? = some p) :
    f.Follows x.context p s (x.layout.before x.faces (k + 1)) :=
  follows_before h.shape.1 h.shape.2 hp s

/-- A run that fails does so in its own frame, or passes on the error of a callee. -/
theorem exists_cause (h : x.outcome = .error e) : ∃ k, x.Raises k e ∨ x.PassesOn k e := by
  -- Otherwise every instruction hands on to the next one, and the run falls off the end of the
  -- code, which is an error of its own frame.
  by_contra hnone
  have hall : ∀ k ≤ x.code.length, ∃ f s, x.Reaches k f s := by
    intro k hk
    induction k with
    | zero =>
      obtain ⟨s, hs⟩ := x.exists_reaches_zero
      exact ⟨_, s, hs⟩
    | succ k ih =>
      obtain ⟨f, s, hf⟩ := ih (Nat.le_of_succ_le hk)
      have hp : x.code[k]? = some (x.code[k]) := List.getElem?_eq_getElem hk
      have hraises {e' : RunError} (he : f.Raises x.context (x.code[k]) e') : False := by
        have hstops := hf.raises hp he
        cases h.symm.trans hstops.1
        exact hnone ⟨k, .inl hstops⟩
      have hfollows := hf.follows hp
      generalize x.layout.before x.faces (k + 1) = r at hfollows
      cases hfollows with
      | raises he => exact (hraises he).elim
      | misfit he => exact (hraises he).elim
      | passesOn he =>
        have hstops := hf.passesOn hp he
        cases h.symm.trans hstops.1
        exact absurd ⟨k, .inr hstops⟩ hnone
      | next hstep => exact ⟨_, _, hf.succ hp hstep⟩
      | done hstep => cases h.symm.trans (hf.outcome_of_done hp hstep)
  obtain ⟨f, s, hf⟩ := hall x.code.length le_rfl
  cases h.symm.trans hf.outcome_of_length
  exact hnone ⟨_, .inl ⟨h, f, s, hf, .inr ⟨rfl, rfl⟩⟩⟩

/-- The run ends at index `k` because a value does not fit the slot that it is put into. -/
def Misfits (x : Execution) (k : Nat) : Prop :=
  ∃ procedure index t actual, x.Raises k (.argumentType procedure index t actual)

/-- A run gets wherever there is a shape, unless a value or a callee stops it. -/
theorem exists_reaches {stack : List Shape} (hk : k ≤ x.code.length)
    (h : x.layout.before x.faces k = .ok (some stack)) :
    (∃ f s, x.Reaches k f s) ∨ ∃ j < k, x.Misfits j ∨ ∃ e, x.PassesOn j e := by
  induction k generalizing stack with
  | zero =>
    obtain ⟨s, hs⟩ := x.exists_reaches_zero
    exact .inl ⟨_, s, hs⟩
  | succ k ih =>
    obtain ⟨p, hp⟩ : ∃ p, x.code[k]? = some p := ⟨_, List.getElem?_eq_getElem hk⟩
    obtain ⟨before, hbefore⟩ := exists_before_of_succ h
    rcases ih (Nat.le_of_succ_le hk) hbefore with ⟨f, s, hf⟩ | ⟨j, hj, hstops⟩
    · have hfollows := hf.follows hp
      -- There is a shape behind the instruction, so that it does not end the run structurally.
      rw [h] at hfollows
      cases hfollows with
      | misfit he =>
        exact .inr ⟨k, Nat.lt_succ_self k, .inl ⟨_, _, _, _, hf.raises hp he⟩⟩
      | passesOn he =>
        exact .inr ⟨k, Nat.lt_succ_self k, .inr ⟨_, hf.passesOn hp he⟩⟩
      | next hstep => exact .inl ⟨_, _, hf.succ hp hstep⟩
    · exact .inr ⟨j, Nat.lt_succ_of_lt hj, hstops⟩

/-! ### Runs of one body -/

/-- A run of a body under a signature: it has as many arguments as there are parameters, and its code is
the body's. The callees declare what the body's callees declare; what they answer is left open. -/
structure Runs (x : Execution) (signature : Signature) (body : Body Callee) : Prop where
  faces_eq : ∃ code, body.decode = .ok code ∧ x.faces = code.map (Placed.map Callee.face)
  locals_eq : x.locals = body.locals
  length_args : x.args.length = signature.arity
  result_eq : x.context.result = signature.result

variable {signature : Signature} {body : Body Callee}

theorem Runs.same_layout (hx : x.Runs signature body) (hy : y.Runs signature body) :
    x.layout = y.layout := by
  rw [layout, layout, hx.length_args, hy.length_args, hx.locals_eq, hy.locals_eq, hx.result_eq,
    hy.result_eq]

theorem Runs.same_faces (hx : x.Runs signature body) (hy : y.Runs signature body) :
    x.faces = y.faces := by
  obtain ⟨code, hcode, hfaces⟩ := hx.faces_eq
  obtain ⟨code', hcode', hfaces'⟩ := hy.faces_eq
  cases hcode.symm.trans hcode'
  rw [hfaces, hfaces']

theorem length_faces (x : Execution) : x.faces.length = x.code.length := List.length_map ..

theorem lastOffset_eq (x : Execution) :
    lastOffset x.code = (x.faces.getLast?.map Placed.offset).getD 0 := by
  rw [lastOffset, faces, List.getLast?_map, Option.map_map]
  rfl

theorem Runs.same_length (hx : x.Runs signature body) (hy : y.Runs signature body) :
    x.code.length = y.code.length := by
  rw [← length_faces, ← length_faces, hx.same_faces hy]

/-- The instruction that raises a structural error is one behind which there is no shape. -/
theorem Reaches.before_of_raises (h : x.Reaches k f s) (hp : x.code[k]? = some p)
    (hraises : f.Raises x.context p e) (he : e.isStructural) :
    x.layout.before x.faces (k + 1) = .error e := by
  rcases (h.follows hp).of_raises hraises with herror | ⟨procedure, index, t, actual, rfl⟩
  · exact herror
  · cases he

/-- An instruction behind which there is no shape raises the error. -/
theorem Reaches.raises_of_before (h : x.Reaches k f s) (hp : x.code[k]? = some p)
    (herror : x.layout.before x.faces (k + 1) = .error e) : x.Raises k e := by
  have hfollows := h.follows hp
  rw [herror] at hfollows
  cases hfollows with
  | raises hraises => exact h.raises hp hraises

/-- A structural error of one run is raised by every run that gets to its position. -/
theorem Raises.of_reaches (hx : x.Runs signature body) (hy : y.Runs signature body)
    (hraises : x.Raises k e) (he : e.isStructural) (hreaches : y.Reaches k f s) :
    y.Raises k e := by
  obtain ⟨-, g, t, hg, ⟨p, hp, hraises⟩ | ⟨rfl, rfl⟩⟩ := hraises
  · obtain ⟨hk, -⟩ := List.getElem?_eq_some_iff.mp hp
    rw [hx.same_length hy] at hk
    have herror := hg.before_of_raises hp hraises he
    rw [hx.same_layout hy, hx.same_faces hy] at herror
    exact hreaches.raises_of_before (List.getElem?_eq_getElem hk) herror
  · rw [hx.same_length hy] at hreaches ⊢
    rw [lastOffset_eq, hx.same_faces hy, ← lastOffset_eq]
    exact ⟨hreaches.outcome_of_length, f, s, hreaches, .inr ⟨rfl, rfl⟩⟩

/-- The run of a body's instructions with the body's own callees. -/
def ofBody (header : Header) (signature : Signature) (body : Body Callee)
    (code : List (Placed Callee)) (received : List Value) (s : Store) : Execution :=
  ⟨⟨header.name, signature.result, header.resolver⟩, code.map (Placed.map Callee.link), body.locals,
    received, s⟩

theorem runs_ofBody (header : Header) (signature : Signature) {code : List (Placed Callee)}
    (hdecode : body.decode = .ok code) (received : List Value)
    (hlen : received.length = signature.arity) (s : Store) :
    (ofBody header signature body code received s).Runs signature body where
  faces_eq := by
    have hface : Placed.map Link.face ∘ Placed.map Callee.link = Placed.map Callee.face := by
      funext p
      obtain ⟨offset, op, operand⟩ := p
      cases operand with
      | method callee => cases callee <;> rfl
      | _ => rfl
    refine ⟨code, hdecode, ?_⟩
    rw [faces, ofBody, List.map_map, hface]
  locals_eq := rfl
  length_args := hlen
  result_eq := rfl

/-- The run is one that a call of the procedure comes to, once the arguments are received and the body
is decoded. -/
def IsRunOf (x : Execution) (g : Procedure) (args : List Value) : Prop :=
  ∃ header signature body code received s, g = .generated header signature body ∧
    signature.receive header.name args = .ok received ∧ body.decode = .ok code ∧
    x = ofBody header signature body code received s

/-- A call that has received its arguments and decoded its body runs that body. -/
theorem exists_ofBody_of_invoke (header : Header) {args received : List Value}
    {code : List (Placed Callee)} (hreceive : signature.receive header.name args = .ok received)
    (hdecode : body.decode = .ok code) (s : Store) :
    ∃ s', (ofBody header signature body code received s').outcome
      = (((Procedure.generated header signature body).invoke args).runOn s).1 := by
  have hlinked := gives_decode header.id (linkBody body) s
  rw [linkBody_eq, Body.decode_map, hdecode, ← linkBody_eq] at hlinked
  rcases hrun : (Task.decode header.id (linkBody body)).runOn s with ⟨r, s'⟩
  rw [hrun] at hlinked
  cases hlinked
  refine ⟨s', ?_⟩
  rw [Procedure.invoke]
  simp only [runOn_bind, runOn_ofExcept, hreceive, hrun]
  rfl

/-- A call that has received its arguments and decoded its body is a run of that body. -/
theorem exists_runs_of_invoke {header : Header} {args received : List Value}
    {code : List (Placed Callee)} (hreceive : signature.receive header.name args = .ok received)
    (hdecode : body.decode = .ok code) (s : Store) :
    ∃ x : Execution, x.Runs signature body ∧ x.args = received ∧
      x.outcome = (((Procedure.generated header signature body).invoke args).runOn s).1 := by
  have hlen : received.length = signature.arity := (fits_of_receive hreceive).length_eq
  obtain ⟨s', houtcome⟩ := exists_ofBody_of_invoke header hreceive hdecode s
  exact ⟨_, runs_ofBody header signature hdecode received hlen s', rfl, houtcome⟩

end Execution

open Execution

/-- **Structural failures do not depend on data.** In all runs of a body with its signature, the shape
of the stack before an instruction is a function of the position. If one run ends with a structural
error of its own frame, every other run ends no later with a value that does not fit its slot or with
an error of a callee, or ends at the same position with the same error. No run fails in another way
than these, and the calls of a procedure are such runs. -/
theorem shape_of_position (signature : Signature) (body : Body Callee) :
    (∃ shapeAt : Nat → List Shape, ∀ x : Execution, x.Runs signature body →
      ∀ k f s, x.Reaches k f s → f.shape = shapeAt k) ∧
    (∀ x y : Execution, x.Runs signature body → y.Runs signature body →
      ∀ k e, x.Raises k e → e.isStructural →
        (∃ j ≤ k, y.Misfits j ∨ ∃ e', y.PassesOn j e') ∨ y.Raises k e) ∧
    (∀ x : Execution, x.Runs signature body → ∀ e, x.outcome = .error e →
      ∃ k, x.Raises k e ∨ x.PassesOn k e) ∧
    ∀ header args received code s, signature.receive header.name args = .ok received →
      body.decode = .ok code →
      ∃ x : Execution, x.Runs signature body ∧ x.args = received ∧
        x.outcome = (((Procedure.generated header signature body).invoke args).runOn s).1 := by
  refine ⟨?_, ?_, fun x _ e => exists_cause, ?_⟩
  · -- The shapes are read off the code with the layout of any one run, since all runs have the same.
    by_cases hruns : ∃ x₀ : Execution, x₀.Runs signature body
    · obtain ⟨x₀, hx₀⟩ := hruns
      refine ⟨fun k => (x₀.layout.before x₀.faces k).toOption.join.getD [], ?_⟩
      intro x hx k f s hreaches
      obtain ⟨-, hbefore⟩ := hreaches.shape
      rw [hx.same_layout hx₀, hx.same_faces hx₀] at hbefore
      simp only [hbefore, Except.toOption, Option.join_some, Option.getD_some]
    · exact ⟨fun _ => [], fun x hx => absurd ⟨x, hx⟩ hruns⟩
  · intro x y hx hy k e hraises he
    -- The shape that the first run has at the error leads the second run there, too.
    obtain ⟨g, t, hg, -⟩ := hraises.2
    obtain ⟨-, hbefore⟩ := hg.shape
    rw [hx.same_layout hy, hx.same_faces hy] at hbefore
    rcases exists_reaches (hx.same_length hy ▸ hg.1) hbefore with ⟨f, s, hf⟩ | ⟨j, hj, hstops⟩
    · exact .inr (hraises.of_reaches hx hy he hf)
    · exact .inl ⟨j, hj.le, hstops⟩
  · intro header args received code s hreceive hdecode
    exact exists_runs_of_invoke hreceive hdecode s

/-- The body hands its argument to `f` and takes two slots off the stack, where there is only the one
with what `f` returns. With an argument that `f` does not take the run ends before. -/
theorem shape_of_position_underflow :
    ∃ (f : Procedure) (body : Body Callee) (x y : Execution),
      f = .host 1 "f" ⟨[.ofType .i32], .i32⟩ (fun args => .ok (args.getD 0 .unit)) ∧
      body = ⟨[0x02, 0x28, 0x01, 0x00, 0x00, 0x0A, 0x26, 0x26, 0x2A], [],
        ⟨[], [.procedure f], []⟩⟩ ∧
      x.Runs ⟨[.ofType .object], .unit⟩ body ∧ x.args = [.i32 1] ∧
      y.Runs ⟨[.ofType .object], .unit⟩ body ∧ y.args = [.str "a"] ∧
      x.Raises 3 (.stackUnderflow 7) ∧ y.Misfits 1 ∧
      ((∃ j ≤ 3, y.Misfits j ∨ ∃ e', y.PassesOn j e') ∨ y.Raises 3 (.stackUnderflow 7)) := by
  obtain ⟨f, hf⟩ : ∃ f, f = Procedure.host 1 "f" ⟨[.ofType .i32], .i32⟩
    (fun args => .ok (args.getD 0 .unit)) := ⟨_, rfl⟩
  obtain ⟨body, hbody⟩ : ∃ body, body = (⟨[0x02, 0x28, 0x01, 0x00, 0x00, 0x0A, 0x26, 0x26, 0x2A], [],
    ⟨[], [.procedure f], []⟩⟩ : Body Callee) := ⟨_, rfl⟩
  obtain ⟨code, hcode⟩ : ∃ code, code = [⟨0, .bare .ldarg0⟩, ⟨1, ⟨.call, .method (.procedure f)⟩⟩,
    ⟨6, .bare .pop⟩, ⟨7, .bare .pop⟩, (⟨8, .bare .ret⟩ : Placed Callee)] := ⟨_, rfl⟩
  have hdecode : body.decode = .ok code := by
    subst hcode hbody
    cbv
  have hx := runs_ofBody ⟨2, "g", 0⟩ ⟨[.ofType .object], .unit⟩ hdecode [.i32 1] rfl .empty
  have hy := runs_ofBody ⟨2, "g", 0⟩ ⟨[.ofType .object], .unit⟩ hdecode [.str "a"] rfl .empty
  have hraises : (ofBody ⟨2, "g", 0⟩ ⟨[.ofType .object], .unit⟩ body code [.i32 1] .empty).Raises 3
      (.stackUnderflow 7) := by
    subst hcode hbody hf
    refine ⟨rfl, _, _, ⟨by decide, rfl⟩, .inl ⟨_, rfl, fun call s => rfl⟩⟩
  have hmisfits : (ofBody ⟨2, "g", 0⟩ ⟨[.ofType .object], .unit⟩ body code [.str "a"] .empty).Misfits
      1 := by
    subst hcode hbody hf
    refine ⟨_, _, _, _, rfl, _, _, ⟨by decide, rfl⟩, .inl ⟨_, rfl, fun call s => rfl⟩⟩
  exact ⟨f, body, _, _, hf, hbody, hx, rfl, hy, rfl, hraises, hmisfits,
    (shape_of_position _ body).2.1 _ _ hx hy 3 _ hraises rfl⟩

end Machine

end CallAdapter
