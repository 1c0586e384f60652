import CallAdapter.Proofs.Decoding
import CallAdapter.Proofs.Moves
import CallAdapter.Procedure.Induction
import CallAdapter.Procedure.Invoke

/-!
# Outcomes do not depend on the store

The store keeps zero values and the instructions of bodies that have been decoded. Neither shows in
the outcome of a task: a kept zero value is the one that would be constructed again, and kept
instructions are those that decoding the body would give.

What the machine does with the store is said once for a move, by `Frame.acts_perform`, and from there
for code and, by induction on procedures, for calls (`Procedure.acts_invoke`). The main result is
`Procedure.settled_invoke`.
-/

namespace CallAdapter

open CallAdapter.Task

/-! ### The machine -/

namespace Machine

def Link.Settled (callee : Link) : Prop := ∀ args, (callee.call args).Settled

/-- The callee in an operand, if there is one, is settled. -/
def OperandSettled (o : Operand Link) : Prop := ∀ callee, o = .method callee → callee.Settled

/-- The move calls its callee: the arguments are on the stack, and they fit into the slots of the
parameters. -/
inductive Frame.CallOf (f : Frame) (offset : Nat) (m : Move Link) : {α : Type} → Run α → Prop
  | mk {callee : Link} {values args : List Value} {rest : Frame} : m = .call callee →
      f.popValues offset callee.params.length = .ok (values, rest) →
      fitAll Value.asSlot? callee.text 0 callee.params values = .ok args →
      CallOf f offset m (callee.call args)

/-- An instruction looks at the store only to initialise something, or by what it calls. -/
theorem Frame.acts_perform (c : Context) (f : Frame) (offset : Nat) (m : Move Link) :
    (f.perform c offset m).Acts (fun r t => r = c.resolver ∧ m = .init t) (f.CallOf offset m) := by
  cases m with
  | stay | push => exact acts_pure _
  | loadArgument | loadLocal | ret => exact (Acts.ofExcept _).map _
  | dup | pop => exact .bind (.ofExcept _) fun _ _ _ => acts_pure _
  | init t =>
    refine .bind (.ofExcept _) fun _ _ _ => ?_
    refine .bind (acts_initial ⟨rfl, rfl⟩) fun _ _ _ => ?_
    exact (Acts.ofExcept _).map _
  | call callee =>
    -- The callee is called last, once the arguments are off the stack and in their slots.
    refine Acts.map _ (.bind (.ofExcept _) ?_)
    rintro ⟨values, rest⟩ _ hpop
    refine .bind (.ofExcept _) fun args _ hfit => ?_
    exact .bind (.other (.mk rfl hpop hfit)) fun _ _ _ => acts_pure _
  | stuck => exact acts_throw _

/-- Some instruction of the code makes this call. -/
inductive CallIn (code : List (Placed Link)) : {α : Type} → Run α → Prop
  | mk {p : Placed Link} {callee : Link} {args : List Value} : p ∈ code →
      p.instruction.operand = .method callee → CallIn code (callee.call args)

theorem acts_steps (c : Context) (code : List (Placed Link)) (f : Frame) :
    (steps c code f).Acts (fun _ _ => True) (CallIn code) := by
  induction code generalizing f with
  | nil => exact acts_pure _
  | cons p ps ih =>
    have hstep := f.acts_perform c p.offset p.instruction.move
    rw [← Frame.step_eq_perform] at hstep
    refine .bind (hstep.expand (fun _ _ _ => trivial) ?_) fun progress _ _ => ?_
    · rintro _ _ ⟨hmove, -, -⟩
      exact .other (.mk (List.mem_cons_self ..) (Instruction.operand_of_move hmove))
    · cases progress with
      | done v => exact acts_pure _
      | next f =>
        -- The rest of the code makes its calls from the shorter list.
        refine (ih f).expand (fun _ _ h => h) ?_
        rintro _ _ ⟨hq, hcallee⟩
        exact .other (.mk (List.mem_cons_of_mem _ hq) hcallee)

theorem acts_execute (c : Context) (code : List (Placed Link)) (locals : List ValueType)
    (args : List Value) : (execute c code locals args).Acts (fun _ _ => True) (CallIn code) := by
  refine .bind (acts_mapM (fun t => acts_initial trivial) locals) fun zeros _ _ => ?_
  refine .bind (acts_steps c code _) fun progress _ _ => ?_
  cases progress with
  | next f => exact acts_throw _
  | done v => exact acts_pure _

end Machine

/-! ### Calls -/

/-- A cell with the outline of a body holds what decoding the body gives. -/
theorem DecodeCell.decode_eq_held {κ : Type} (cell : DecodeCell) (b : Body κ)
    (h : cell.outline = b.outline) : b.decode = .ok (cell.held b h) := by
  obtain ⟨procedure, outline, code, hcode⟩ := cell
  obtain rfl : outline = b.outline := h
  rw [Body.decode_eq_outline, hcode]
  rfl

theorem DecodeCell.instructions_eq {κ : Type} (cell : DecodeCell) (b : Body κ) :
    cell.instructions b = b.decode := by
  unfold DecodeCell.instructions
  split
  · next houtline => exact (cell.decode_eq_held b houtline).symm
  · rfl

/-- A cell is made of what decoding gives, if it gives instructions. -/
theorem DecodeCell.ofDecoded_cases (id : ProcedureId) (o : Outline)
    (decoded : Except RunError (List (Placed (Fin o.callees)))) (h : o.decode = decoded) :
    (∃ code cell, decoded = .ok code ∧ ofDecoded id o decoded h = .ok cell ∧
      cell.procedure = id ∧ cell.outline = o ∧ cell.code.length = code.length) ∨
    ∃ e, decoded = .error e ∧ ofDecoded id o decoded h = .error e := by
  cases decoded with
  | ok code => exact .inl ⟨code, _, rfl, rfl, rfl, rfl, rfl⟩
  | error e => exact .inr ⟨e, rfl, rfl⟩

/-- There is a cell, or else the outline does not decode and nothing is stored. -/
theorem Store.fillCell_cases (s : Store) (id : ProcedureId) (o : Outline) :
    (∃ cell s', s.fillCell id o = (.ok cell, s')) ∨
      ∃ e, o.decode = .error e ∧ s.fillCell id o = (.error e, s) := by
  unfold Store.fillCell
  cases s.cell? id with
  | some cell => exact .inl ⟨cell, s, rfl⟩
  | none =>
    rcases DecodeCell.ofDecoded_cases id o o.decode rfl with ⟨-, cell, -, hcell, -⟩ | ⟨e, he, herror⟩
    · rw [hcell]
      exact .inl ⟨cell, _, rfl⟩
    · rw [herror]
      exact .inr ⟨e, he, rfl⟩

/-- The instructions of a procedure are those of its body, whether its cell is filled or not. -/
theorem Task.gives_decode {κ : Type} (id : ProcedureId) (b : Body κ) :
    (Task.decode id b).Gives b.decode := by
  intro s
  rw [Task.decode, Task.runOn_bind, Task.runOn_cell]
  rcases s.fillCell_cases id b.outline with ⟨cell, s', hcell⟩ | ⟨e, he, herror⟩
  · rw [hcell]
    exact cell.instructions_eq b
  · rw [herror, Body.decode_eq_outline, he]
    rfl

/-- A call whose arguments are not received ends there, and leaves everything as it is. -/
theorem Procedure.runOn_invoke_refused {p : Procedure} {args : List Value} {e : RunError}
    (h : p.signature.receive p.name args = .error e) (s : Store) :
    (p.invoke args).runOn s = (.error e, s) := by
  cases p with
  | host id name signature function =>
    have h : signature.receive name args = .error e := h
    rw [Procedure.invoke, h]
    rfl
  | generated header signature body =>
    have h : signature.receive header.name args = .error e := h
    rw [Procedure.invoke, h]
    rfl

/-- A callee that is read from linked code is the call to one of the body's callees. -/
theorem exists_callee_of_decode {b : Body Callee} {ps : List (Placed Machine.Link)}
    (h : (linkBody b).decode = .ok ps) {p : Placed Machine.Link} (hp : p ∈ ps)
    {link : Machine.Link} (hlink : p.instruction.operand = .method link) :
    ∃ callee ∈ b.tables.methods, callee.link = link := by
  obtain ⟨chunks, -, hlaid⟩ := exists_laid_of_decode h
  have hmem := hlaid.method_mem hp hlink
  rw [linkBody_eq] at hmem
  exact List.mem_map.mp hmem

/-- A body is decoded. -/
inductive Task.Decodes : {α : Type} → Run α → Prop
  | mk {κ : Type} (id : ProcedureId) (b : Body κ) : Decodes (Task.decode id b)

theorem Task.Decodes.settled {α : Type} {x : Run α} (h : x.Decodes) : x.Settled := by
  obtain ⟨id, b⟩ := h
  exact ⟨_, gives_decode id b⟩

/-- A call asks for zero values and decodes bodies, its own and those of its callees. -/
theorem Procedure.acts_invoke (p : Procedure) (args : List Value) :
    (p.invoke args).Acts (fun _ _ => True) Task.Decodes := by
  induction p using Procedure.induction generalizing args with
  | host id name signature function =>
    exact .bind (.ofExcept _) fun _ _ _ => .ofExcept _
  | generated header signature body ih =>
    refine .bind (.ofExcept _) fun received _ _ => ?_
    refine .bind (.other (.mk header.id (linkBody body))) fun code s hcode => ?_
    have hdecode : (linkBody body).decode = .ok code :=
      (gives_decode header.id (linkBody body) s).symm.trans hcode
    -- The code is that of the body, so that every call in it goes to one of the body's callees.
    refine (Machine.acts_execute _ code body.locals received).expand (fun _ _ h => h) ?_
    rintro _ _ ⟨hp, hlink⟩
    obtain ⟨callee, hcallee, rfl⟩ := exists_callee_of_decode hdecode hp hlink
    cases callee with
    | procedure target => exact ih target hcallee _
    | wrapper t => exact .ofExcept _

/-- Listing asks for nothing. -/
theorem Procedure.acts_listing (p : Procedure) :
    p.listing.Acts (fun _ _ => False) Task.Decodes := by
  unfold Procedure.listing
  cases p.body? with
  | none => exact acts_pure _
  | some body => exact .bind (.other (.mk p.id body)) fun _ _ _ => acts_pure _

/-- The outcome of a call does not depend on the store. -/
theorem Procedure.settled_invoke (p : Procedure) (args : List Value) :
    (p.invoke args).Settled :=
  (p.acts_invoke args).settled fun _ h => h.settled

end CallAdapter
