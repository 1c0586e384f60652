import CallAdapter.Proofs.Saturation

/-!
# Coming to a body

A generated procedure decodes its body when it is listed, and when it is called and has received its
arguments. What has been decoded is kept in a cell, so that the next time nothing has to be done.

When something comes to a body cannot be seen from the store alone, since a full cell and a body that
does not decode leave it as it is. It is said by `Activity.Visits`, which follows a call into its
instructions and into the calls that they make. What one visit does with the store is said by
`Visit.after_cases`. Nothing but visits decodes (`Activity.Visits.decodes`), every activity has its
visits (`Procedure.exists_visits`), and a visit that fails is the last one of its operation, which fails
with it (`Operation.Visits.fails`).
-/

namespace CallAdapter

open Machine CallAdapter.Task

/-! ### What is known about decoding -/

namespace Store

variable {s s' s'' : Store}

/-- The events in the log that the body of the procedure has been decoded. -/
def decodings (s : Store) (id : ProcedureId) : List Event := s.events.filter (·.isDecoding id)

/-- Nothing has been decoded from one store to the other. -/
structure SameCells (s s' : Store) : Prop where
  cells : s'.cells = s.cells
  decodings : ∀ id, s'.decodings id = s.decodings id

theorem SameCells.refl (s : Store) : s.SameCells s := ⟨rfl, fun _ => rfl⟩

theorem SameCells.trans (h : s.SameCells s') (h' : s'.SameCells s'') : s.SameCells s'' :=
  ⟨h'.cells.trans h.cells, fun id => (h'.decodings id).trans (h.decodings id)⟩

theorem SameCells.cell?_eq (h : s.SameCells s') (id : ProcedureId) : s'.cell? id = s.cell? id := by
  rw [cell?, h.cells, ← cell?]

theorem sameCells_log (s : Store) {e : Event} (h : ∀ id, e.isDecoding id = false) :
    s.SameCells (s.log e) :=
  ⟨rfl, fun id => List.filter_cons_of_neg (by simp [h id])⟩

theorem sameCells_zero? (s : Store) (r : ResolverId) (t : ValueType) :
    s.SameCells (s.zero? r t).2 := by
  rcases s.zero?_cases r t with ⟨-, hsame⟩ | ⟨-, -, hnew⟩
  · rw [hsame]
    exact .refl s
  · rw [hnew]
    have hlog : s.SameCells (s.log (.constructing r t)) := s.sameCells_log fun _ => rfl
    exact ⟨hlog.cells, hlog.decodings⟩

theorem cell?_addCell (s : Store) (cell : DecodeCell) (id : ProcedureId) :
    (s.addCell cell).cell? id = if cell.procedure = id then some cell else s.cell? id := by
  by_cases h : cell.procedure = id <;> simp [cell?, addCell, h]

theorem decodings_addCell (s : Store) (cell : DecodeCell) (id : ProcedureId) :
    (s.addCell cell).decodings id = if cell.procedure = id then
      .decoded id cell.outline.code.length cell.code.length :: s.decodings id
      else s.decodings id := by
  by_cases h : cell.procedure = id <;> simp [decodings, addCell, log, Event.isDecoding, h]

end Store

/-! ### Tasks that decode nothing -/

namespace Task

variable {ε α : Type} {x : Task ε α}

/-- The task decodes nothing. -/
def KeepsCells (x : Task ε α) : Prop := ∀ s : Store, s.SameCells (x.runOn s).2

theorem keepsCells_ofExcept (x : Except ε α) : (ofExcept x).KeepsCells := fun s => .refl s

theorem Acts.keepsCells {P : ResolverId → ValueType → Prop} {C : {α : Type} → Task ε α → Prop}
    (h : x.Acts P C) (hC : ∀ {α : Type} (y : Task ε α), C y → y.KeepsCells) : x.KeepsCells :=
  h.related (R := Store.SameCells) Store.SameCells.refl Store.SameCells.trans
    (fun s _ he => s.sameCells_log he) (fun s r t _ => s.sameCells_zero? r t) hC

theorem Asks.keepsCells {P : ResolverId → ValueType → Prop} (h : x.Asks P) : x.KeepsCells :=
  Acts.keepsCells h fun _ hnone => hnone.elim

end Task

/-! ### Visits -/

/-- The body of a procedure is about to be decoded, on a store. -/
structure Visit where
  id : ProcedureId
  body : Body Callee
  store : Store

namespace Visit

def answer (v : Visit) : Except RunError (List (Placed Callee)) :=
  ((Task.decode v.id v.body).runOn v.store).1

def after (v : Visit) : Store := ((Task.decode v.id v.body).runOn v.store).2

theorem answer_eq (v : Visit) : v.answer = v.body.decode := gives_decode v.id v.body v.store

end Visit

theorem runOn_decode_snd {κ : Type} (id : ProcedureId) (b : Body κ) (s : Store) :
    ((Task.decode id b).runOn s).2 = (s.fillCell id b.outline).2 := by
  rw [Task.decode, runOn_bind, runOn_cell]
  rcases s.fillCell id b.outline with ⟨e | cell, s'⟩ <;> rfl

theorem outline_linkBody (b : Body Callee) : (linkBody b).outline = b.outline := by
  rw [linkBody_eq]
  simp [Body.outline, Body.map, Tables.map]

/-- In a visit the body is decoded and the cell is filled, or else the cell is full or the body does not
decode, and nothing changes. -/
theorem Visit.after_cases (v : Visit) :
    (v.after = v.store ∧
      ((∃ cell, v.store.cell? v.id = some cell) ∨ ∃ e, v.body.decode = .error e)) ∨
    ∃ cell code, v.store.cell? v.id = none ∧ v.body.decode = .ok code ∧
      v.after = v.store.addCell cell ∧ cell.procedure = v.id ∧ cell.outline = v.body.outline ∧
      cell.code.length = code.length := by
  have hdecode := v.body.decode_eq_outline
  rw [after, runOn_decode_snd, Store.fillCell]
  cases v.store.cell? v.id with
  | some cell => exact .inl ⟨rfl, .inl ⟨cell, rfl⟩⟩
  | none =>
    rcases DecodeCell.ofDecoded_cases v.id v.body.outline v.body.outline.decode rfl with
      ⟨code, cell, hcode, hcell, hid, houtline, hcount⟩ | ⟨e, he, herror⟩
    · rw [hcode] at hdecode
      rw [hcell]
      refine .inr ⟨cell, _, rfl, hdecode, rfl, hid, houtline, ?_⟩
      rw [List.length_map, hcount]
    · rw [he] at hdecode
      rw [herror]
      exact .inl ⟨rfl, .inr ⟨e, hdecode⟩⟩

theorem Visit.after_eq_of_error {v : Visit} {e : RunError} (he : v.body.decode = .error e) :
    v.after = v.store := by
  rcases v.after_cases with ⟨hsame, -⟩ | ⟨-, code, -, hcode, -⟩
  · exact hsame
  · cases he.symm.trans hcode

/-- The instruction calls a procedure: the arguments are on the stack, and they fit into the slots of
the parameters. -/
structure Machine.Frame.Calls (f : Frame) (p : Placed Callee) (q : Procedure) (args : List Value) :
    Prop where
  move : p.instruction.move = .call (.procedure q)
  args_eq : ∃ values rest, f.popValues p.offset q.signature.types.length = .ok (values, rest) ∧
    fitAll Value.asSlot? (Callee.procedure q).text 0 q.signature.types values = .ok args

/-- What goes on in a call: the call itself, one instruction, and a sequence of them. -/
inductive Activity where
  | call (procedure : Procedure) (args : List Value)
  | step (context : Context) (frame : Frame) (instruction : Placed Callee)
  | run (context : Context) (frame : Frame) (code : List (Placed Callee))

/-- Code with the calls to its callees. -/
def linkPlaced (code : List (Placed Callee)) : List (Placed Link) :=
  code.map (Placed.map Callee.link)

def Body.zeros (body : Body Callee) (resolver : ResolverId) : Run (List Value) :=
  body.locals.mapM (Task.initial resolver)

def Activity.task : Activity → Run Unit
  | .call procedure args => (fun _ => ()) <$> procedure.invoke args
  | .step context frame p =>
    (fun _ => ()) <$> frame.step context p.offset (p.instruction.map Callee.link)
  | .run context frame code => (fun _ => ()) <$> steps context (linkPlaced code) frame

/-- What an activity that begins on the store decodes, in order. A procedure that is called decodes its
body once its arguments are received, and then runs it. -/
inductive Activity.Visits : Activity → Store → List Visit → Prop
  | host {id : ProcedureId} {name : String} {signature : Signature} {function : HostFunction}
      {args : List Value} {s : Store} :
      Visits (.call (.host id name signature function) args) s []
  | refused {header : Header} {signature : Signature} {body : Body Callee} {args : List Value}
      {s : Store} {e : RunError} : signature.receive header.name args = .error e →
      Visits (.call (.generated header signature body) args) s []
  | undecoded {header : Header} {signature : Signature} {body : Body Callee}
      {args received : List Value} {s : Store} {e : RunError} :
      signature.receive header.name args = .ok received → body.decode = .error e →
      Visits (.call (.generated header signature body) args) s [⟨header.id, body, s⟩]
  | decoded {header : Header} {signature : Signature} {body : Body Callee}
      {args received zeros : List Value} {code : List (Placed Callee)} {s s' : Store}
      {vs : List Visit} :
      signature.receive header.name args = .ok received → body.decode = .ok code →
      (body.zeros header.resolver).runOn (Visit.after ⟨header.id, body, s⟩) = (.ok zeros, s') →
      Visits (.run ⟨header.name, signature.result, header.resolver⟩ ⟨received, zeros, []⟩ code) s'
        vs →
      Visits (.call (.generated header signature body) args) s (⟨header.id, body, s⟩ :: vs)
  | alone {c : Context} {f : Frame} {p : Placed Callee} {s : Store} :
      (∀ q args, ¬ f.Calls p q args) → Visits (.step c f p) s []
  | nested {c : Context} {f : Frame} {p : Placed Callee} {q : Procedure} {args : List Value}
      {s : Store} {vs : List Visit} : f.Calls p q args → Visits (.call q args) s vs →
      Visits (.step c f p) s vs
  | nil {c : Context} {f : Frame} {s : Store} : Visits (.run c f []) s []
  | stop {c : Context} {f : Frame} {p : Placed Callee} {ps : List (Placed Callee)} {s : Store}
      {vs : List Visit} : Visits (.step c f p) s vs →
      (∀ f', ((f.step c p.offset (p.instruction.map Callee.link)).runOn s).1 ≠ .ok (.next f')) →
      Visits (.run c f (p :: ps)) s vs
  | next {c : Context} {f f' : Frame} {p : Placed Callee} {ps : List (Placed Callee)}
      {s s' : Store} {vs vs' : List Visit} : Visits (.step c f p) s vs →
      (f.step c p.offset (p.instruction.map Callee.link)).runOn s = (.ok (.next f'), s') →
      Visits (.run c f' ps) s' vs' → Visits (.run c f (p :: ps)) s (vs ++ vs')

/-! ### How activities end -/

namespace Activity

/-- The second activity ends as the first one, which it comes down to: with the same store, and with the
error of the first one, if there is one. -/
structure Passes (a : Activity) (s : Store) (b : Activity) (t : Store) : Prop where
  store : (b.task.runOn t).2 = (a.task.runOn s).2
  error : ∀ e, (a.task.runOn s).1 = .error e → (b.task.runOn t).1 = .error e

theorem Passes.of_runOn {a b : Activity} {s t : Store} {α β : Type} {x : Run α} {y : Run β}
    (ha : a.task = (fun _ => ()) <$> x) (hb : b.task = (fun _ => ()) <$> y)
    (hstore : (y.runOn t).2 = (x.runOn s).2)
    (herror : ∀ e, (x.runOn s).1 = .error e → (y.runOn t).1 = .error e) : Passes a s b t := by
  constructor
  · rw [ha, hb, runOn_map, runOn_map]
    exact hstore
  · intro e he
    rw [ha, runOn_map, map_eq_error_iff] at he
    rw [hb, runOn_map, map_eq_error_iff]
    exact herror e he

section Calls

variable {header : Header} {signature : Signature} {body : Body Callee} {args received : List Value}
  {s : Store}

theorem runOn_invoke (hreceive : signature.receive header.name args = .ok received) :
    ((Procedure.generated header signature body).invoke args).runOn s =
      (Task.decode header.id (linkBody body) >>= fun code =>
        execute ⟨header.name, signature.result, header.resolver⟩ code body.locals
          received).runOn s := by
  rw [Procedure.invoke, hreceive]
  rfl

theorem runOn_decode_linkBody (id : ProcedureId) (body : Body Callee) (s : Store) :
    (Task.decode id (linkBody body)).runOn s =
      (body.decode.map linkPlaced, Visit.after ⟨id, body, s⟩) := by
  refine Prod.ext ?_ ?_
  · have hdecode := gives_decode id (linkBody body) s
    rwa [linkBody_eq, Body.decode_map, ← linkBody_eq] at hdecode
  · rw [runOn_decode_snd, outline_linkBody, Visit.after, runOn_decode_snd]

/-- A call whose body does not decode ends there. -/
theorem runOn_undecoded {e : RunError}
    (hreceive : signature.receive header.name args = .ok received)
    (hdecode : body.decode = .error e) :
    (task (.call (.generated header signature body) args)).runOn s =
      (.error e, Visit.after ⟨header.id, body, s⟩) := by
  rw [task, runOn_map, runOn_invoke hreceive, runOn_bind, runOn_decode_linkBody, hdecode]
  rfl

/-- Any other call runs the body. -/
theorem passes_decoded {code : List (Placed Callee)} {zeros : List Value} {s' : Store}
    (hreceive : signature.receive header.name args = .ok received)
    (hdecode : body.decode = .ok code)
    (hzeros : (body.zeros header.resolver).runOn (Visit.after ⟨header.id, body, s⟩) =
      (.ok zeros, s')) :
    Passes (.run ⟨header.name, signature.result, header.resolver⟩ ⟨received, zeros, []⟩ code) s'
      (.call (.generated header signature body) args) s := by
  have hcall : ((Procedure.generated header signature body).invoke args).runOn s =
      (Machine.run ⟨header.name, signature.result, header.resolver⟩ (linkPlaced code)
        ⟨received, zeros, []⟩).runOn s' := by
    rw [runOn_invoke hreceive, runOn_bind, runOn_decode_linkBody, hdecode]
    show (body.zeros header.resolver >>= _).runOn _ = _
    rw [runOn_bind, hzeros]
  -- What a run does to the store, it does in its steps; the end only looks at how they ended.
  rw [Machine.run, runOn_bind] at hcall
  refine Passes.of_runOn rfl rfl ?_ ?_
  · rw [hcall]
    rcases (steps _ (linkPlaced code) _).runOn s' with ⟨e | _ | _, _⟩ <;> rfl
  · intro e he
    rw [hcall]
    rcases hsteps : (steps _ (linkPlaced code) _).runOn s' with ⟨r, s''⟩
    rw [hsteps] at he
    obtain rfl : r = .error e := he
    rfl

end Calls

section Steps

variable {c : Context} {f f' : Frame} {p : Placed Callee} {ps : List (Placed Callee)}
  {s s' : Store}

/-- An instruction that calls a procedure does nothing with what comes out but push it. -/
theorem runOn_step_of_calls {q : Procedure} {args : List Value} (h : f.Calls p q args) :
    ∃ g : Value → Progress, (f.step c p.offset (p.instruction.map Callee.link)).runOn s =
      (g <$> q.invoke args).runOn s := by
  obtain ⟨hmove, values, rest, hpop, hfit⟩ := h
  have hcall : (f.call p.offset (Callee.procedure q).link).runOn s =
      ((fun r => if q.signature.result = .unit then rest else rest.pushValue r) <$>
        q.invoke args).runOn s := by
    rw [Frame.call]
    show (Task.ofExcept (f.popValues p.offset q.signature.types.length) >>= _).runOn s = _
    rw [hpop]
    show (Task.ofExcept (fitAll Value.asSlot? (Callee.procedure q).text 0 q.signature.types
      values) >>= _).runOn s = _
    rw [hfit, ← bind_pure_comp]
    rfl
  refine ⟨fun r => .next (if q.signature.result = .unit then rest else rest.pushValue r), ?_⟩
  rw [Frame.step_eq_perform, Instruction.move_map, hmove]
  show (Progress.next <$> f.call p.offset (Callee.procedure q).link).runOn s = _
  rw [runOn_map, hcall, runOn_map, runOn_map]
  cases ((q.invoke args).runOn s).1 <;> rfl

theorem passes_nested {q : Procedure} {args : List Value} (h : f.Calls p q args) :
    Passes (.call q args) s (.step c f p) s := by
  obtain ⟨g, hstep⟩ := runOn_step_of_calls (c := c) (s := s) h
  refine Passes.of_runOn rfl rfl ?_ ?_
  · rw [hstep, runOn_map]
  · intro e he
    rw [hstep, runOn_map, he]
    rfl

theorem passes_stop
    (h : ∀ f', ((f.step c p.offset (p.instruction.map Callee.link)).runOn s).1 ≠ .ok (.next f')) :
    Passes (.step c f p) s (.run c f (p :: ps)) s := by
  have hsteps : (steps c (linkPlaced (p :: ps)) f).runOn s = _ := runOn_bind _ _ s
  rcases hstep : (f.step c p.offset (p.instruction.map Callee.link)).runOn s with
    ⟨e | f' | v, s'⟩
  · simp only [Placed.map, hstep] at hsteps
    refine Passes.of_runOn rfl rfl ?_ ?_
    · rw [hsteps, hstep]
    · rw [hsteps, hstep]
      exact fun _ => id
  · exact absurd (congrArg Prod.fst hstep) (h f')
  · simp only [Placed.map, hstep] at hsteps
    refine Passes.of_runOn rfl rfl ?_ ?_
    · rw [hsteps, hstep]
      rfl
    · intro e he
      rw [hstep] at he
      cases he

theorem passes_next
    (h : (f.step c p.offset (p.instruction.map Callee.link)).runOn s = (.ok (.next f'), s')) :
    Passes (.run c f' ps) s' (.run c f (p :: ps)) s := by
  have hsteps : (steps c (linkPlaced (p :: ps)) f).runOn s = (steps c (linkPlaced ps) f').runOn s' := by
    refine (runOn_bind _ _ s).trans ?_
    simp only [Placed.map, h]
    rfl
  exact Passes.of_runOn rfl rfl (by rw [hsteps]) (by rw [hsteps]; exact fun _ => id)

end Steps

/-- An instruction that calls no procedure decodes nothing. -/
theorem keepsCells_alone {c : Context} {f : Frame} {p : Placed Callee}
    (h : ∀ q args, ¬ f.Calls p q args) : (task (.step c f p)).KeepsCells := by
  have hstep := f.acts_perform c p.offset (p.instruction.move.map Callee.link)
  rw [← Instruction.move_map, ← Frame.step_eq_perform] at hstep
  refine (hstep.map _).keepsCells ?_
  rintro _ _ ⟨hmove, hpop, hfit⟩
  obtain ⟨callee, hcallee, rfl⟩ := Move.exists_of_map_eq_call (p.instruction.move_map _ ▸ hmove)
  cases callee with
  | wrapper t => exact keepsCells_ofExcept _
  -- The arguments are there, so that the procedure would be called.
  | procedure q => exact absurd ⟨hcallee, _, _, hpop, hfit⟩ (h q _)

end Activity

/-! ### Only visits decode -/

/-- From one store to the other, bodies are decoded in these visits only. -/
abbrev Store.Decodes : Store → List Visit → Store → Prop :=
  Store.Chain Store.SameCells Visit.store Visit.after

namespace Activity

theorem Visits.decodes {a : Activity} {s : Store} {vs : List Visit} (h : a.Visits s vs) :
    s.Decodes vs (a.task.runOn s).2 := by
  induction h with
  | @host id name signature function args s =>
    have hcall : Asks (fun _ _ => False) (task (.call (.host id name signature function) args)) :=
      .map _ (.bind (.ofExcept _) fun _ _ _ => .ofExcept _)
    exact .nil (hcall.keepsCells s)
  | @refused header signature body args s e hreceive =>
    have hrefused := Procedure.runOn_invoke_refused (p := .generated header signature body) hreceive s
    rw [task, runOn_map, hrefused]
    exact .nil (.refl s)
  | @undecoded header signature body args received s e hreceive hdecode =>
    rw [runOn_undecoded hreceive hdecode]
    exact .cons (.refl s) (.nil (.refl _))
  | @decoded header _ body _ _ _ _ s _ _ hreceive hdecode hzeros _ ih =>
    -- Between the visit and the run there are the locals, which decode nothing.
    rw [(passes_decoded hreceive hdecode hzeros).store]
    refine .cons (.refl s) (ih.of_related Store.SameCells.trans ?_)
    have hlocals : Asks (fun _ _ => True) (body.zeros header.resolver) :=
      acts_mapM (fun t => acts_initial trivial) body.locals
    have hkeeps := hlocals.keepsCells (Visit.after ⟨header.id, body, s⟩)
    rwa [hzeros] at hkeeps
  | alone h => exact .nil (keepsCells_alone h _)
  | nested hcalls _ ih =>
    rw [(passes_nested hcalls).store]
    exact ih
  | nil => exact .nil (.refl _)
  | stop _ hstop ih =>
    rw [(passes_stop hstop).store]
    exact ih
  | next _ hnext _ ih ih' =>
    rw [(passes_next hnext).store]
    rw [task, runOn_map, hnext] at ih
    exact ih.append Store.SameCells.trans ih'

/-- A visit that fails ends everything. -/
theorem Visits.error {a : Activity} {s : Store} {vs : List Visit} (h : a.Visits s vs) {v : Visit}
    (hv : v ∈ vs) {e : RunError} (he : v.body.decode = .error e) :
    (a.task.runOn s).1 = .error e := by
  induction h with
  | host | refused | alone | nil => cases hv
  | undecoded hreceive hdecode =>
    obtain rfl := List.mem_singleton.mp hv
    cases he.symm.trans hdecode
    rw [runOn_undecoded hreceive hdecode]
  | decoded hreceive hdecode hzeros _ ih =>
    rcases List.mem_cons.mp hv with rfl | hv
    · cases he.symm.trans hdecode
    · exact (passes_decoded hreceive hdecode hzeros).error e (ih hv)
  | nested hcalls _ ih => exact (passes_nested hcalls).error e (ih hv)
  | stop _ hstop ih => exact (passes_stop hstop).error e (ih hv)
  | next _ hnext _ ih ih' =>
    rcases List.mem_append.mp hv with hv | hv
    · -- An instruction that has gone on has not failed.
      have hstep := ih hv
      rw [task, runOn_map, hnext] at hstep
      cases hstep
    · exact (passes_next hnext).error e (ih' hv)

/-! ### Every activity has its visits -/

theorem exists_visits_step {p : Placed Callee}
    (h : ∀ q, p.instruction.move = .call (.procedure q) →
      ∀ args s, ∃ vs, Visits (.call q args) s vs)
    (c : Context) (f : Frame) (s : Store) : ∃ vs, Visits (.step c f p) s vs := by
  by_cases hcalls : ∃ q args, f.Calls p q args
  · obtain ⟨q, args, hcalls⟩ := hcalls
    obtain ⟨vs, hvs⟩ := h q hcalls.move args s
    exact ⟨vs, .nested hcalls hvs⟩
  · exact ⟨[], .alone fun q args hq => hcalls ⟨q, args, hq⟩⟩

theorem exists_visits_run {code : List (Placed Callee)}
    (h : ∀ p ∈ code, ∀ q, p.instruction.move = .call (.procedure q) →
      ∀ args s, ∃ vs, Visits (.call q args) s vs)
    (c : Context) (f : Frame) (s : Store) : ∃ vs, Visits (.run c f code) s vs := by
  induction code generalizing f s with
  | nil => exact ⟨[], .nil⟩
  | cons p ps ih =>
    obtain ⟨vs, hvs⟩ := exists_visits_step (h p (List.mem_cons_self ..)) c f s
    have hrest := ih fun q hq => h q (List.mem_cons_of_mem p hq)
    rcases hstep : (f.step c p.offset (p.instruction.map Callee.link)).runOn s with
      ⟨e | f' | v, s'⟩
    · exact ⟨vs, .stop hvs (by simp [hstep])⟩
    · obtain ⟨vs', hvs'⟩ := hrest f' s'
      exact ⟨vs ++ vs', .next hvs hstep hvs'⟩
    · exact ⟨vs, .stop hvs (by simp [hstep])⟩

end Activity

theorem callee_mem_of_decode {body : Body Callee} {code : List (Placed Callee)}
    (h : body.decode = .ok code) {p : Placed Callee} (hp : p ∈ code) {callee : Callee}
    (hmove : p.instruction.move = .call callee) : callee ∈ body.tables.methods := by
  obtain ⟨chunks, -, hlaid⟩ := exists_laid_of_decode h
  exact hlaid.method_mem hp (Instruction.operand_of_move hmove)

theorem Procedure.exists_visits (p : Procedure) (args : List Value) (s : Store) :
    ∃ vs, (Activity.call p args).Visits s vs := by
  induction p using Procedure.induction generalizing args s with
  | host id name signature function => exact ⟨[], .host⟩
  | generated header signature body ih =>
    cases hreceive : signature.receive header.name args with
    | error e => exact ⟨[], .refused hreceive⟩
    | ok received =>
      cases hdecode : body.decode with
      | error e => exact ⟨_, .undecoded hreceive hdecode⟩
      | ok code =>
        -- The zero values of the locals come first. They are always there, and no body is visited
        -- for them.
        have hzeros : (body.zeros header.resolver).Gives (.ok (body.locals.map ValueType.initial)) :=
          gives_mapM (gives_initial header.resolver) body.locals
        obtain ⟨vs, hvs⟩ := Activity.exists_visits_run
          (fun p hp q hq => ih q (callee_mem_of_decode hdecode hp hq))
          ⟨header.name, signature.result, header.resolver⟩
          ⟨received, body.locals.map ValueType.initial, []⟩
          ((body.zeros header.resolver).runOn (Visit.after ⟨header.id, body, s⟩)).2
        exact ⟨_, .decoded hreceive hdecode (Prod.ext (hzeros _) rfl) hvs⟩

theorem Procedure.runOn_listing (header : Header) (signature : Signature) (body : Body Callee)
    (s : Store) : (Procedure.listing (.generated header signature body)).runOn s =
      (body.decode.map (List.map Placed.line), Visit.after ⟨header.id, body, s⟩) := by
  have hdecode : (Task.decode header.id body).runOn s =
      (body.decode, Visit.after ⟨header.id, body, s⟩) :=
    Prod.ext (gives_decode header.id body s) rfl
  refine (runOn_bind _ _ s).trans ?_
  rw [show (Task.decode (Procedure.generated header signature body).id body).runOn s = _ from hdecode]
  cases body.decode <;> rfl

/-! ### Histories -/

/-- The operation has failed with this error. -/
def Answer.Fails (a : Answer) (e : RunError) : Prop :=
  a = .listed (.error e) ∨ a = .returned (.error e)

namespace Operation

def Visits (s : Store) (vs : List Visit) : Operation → Prop
  | .listing (.generated header _ body) => vs = [⟨header.id, body, s⟩]
  | .invoke procedure args => (Activity.call procedure args).Visits s vs
  | _ => vs = []

inductive AllVisits : Store → List Operation → List Visit → Prop
  | nil (s : Store) : AllVisits s [] []
  | cons {s : Store} {o : Operation} {history : List Operation} {vs vs' : List Visit} :
      o.Visits s vs → AllVisits (o.perform s).2 history vs' →
        AllVisits s (o :: history) (vs ++ vs')

theorem exists_visits (o : Operation) (s : Store) : ∃ vs, o.Visits s vs := by
  cases o with
  | zeroValue | adapt | bindAt => exact ⟨[], rfl⟩
  | listing p =>
    cases p with
    | host => exact ⟨[], rfl⟩
    | generated => exact ⟨_, rfl⟩
  | invoke p args => exact p.exists_visits args s

theorem exists_allVisits (s : Store) (history : List Operation) :
    ∃ vs, AllVisits s history vs := by
  induction history generalizing s with
  | nil => exact ⟨[], .nil s⟩
  | cons o history ih =>
    obtain ⟨vs, hvs⟩ := o.exists_visits s
    obtain ⟨vs', hvs'⟩ := ih (o.perform s).2
    exact ⟨vs ++ vs', .cons hvs hvs'⟩

theorem Visits.decodes {o : Operation} {s : Store} {vs : List Visit} (h : o.Visits s vs) :
    s.Decodes vs (o.perform s).2 := by
  cases o with
  | zeroValue r t =>
    obtain rfl : vs = [] := h
    exact .nil (s.sameCells_zero? r t)
  | adapt header supplied target filling =>
    obtain rfl : vs = [] := h
    exact .nil ((asks_adapt header supplied target filling).keepsCells s)
  | bindAt header target bindings start =>
    obtain rfl : vs = [] := h
    exact .nil ((asks_bindAt header target bindings start).keepsCells s)
  | listing p =>
    cases p with
    | host id name signature function =>
      obtain rfl : vs = [] := h
      exact .nil (.refl s)
    | generated header signature body =>
      obtain rfl : vs = [⟨header.id, body, s⟩] := h
      refine .cons (.refl s) (.nil ?_)
      rw [perform, Procedure.runOn_listing]
      exact .refl _
  | invoke p args =>
    have hdecodes := Activity.Visits.decodes h
    rw [Activity.task, runOn_map] at hdecodes
    exact hdecodes

theorem AllVisits.decodes {s : Store} {history : List Operation} {vs : List Visit}
    (h : AllVisits s history vs) : s.Decodes vs (after s history) := by
  induction h with
  | nil s => exact .nil (.refl s)
  | cons hfirst _ ih => exact hfirst.decodes.append Store.SameCells.trans ih

/-- An operation that comes to a body that does not decode fails. -/
theorem Visits.fails {o : Operation} {s : Store} {vs : List Visit} (h : o.Visits s vs) {v : Visit}
    (hv : v ∈ vs) {e : RunError} (he : v.body.decode = .error e) : (o.perform s).1.Fails e := by
  cases o with
  | zeroValue | adapt | bindAt =>
    obtain rfl : vs = [] := h
    cases hv
  | listing p =>
    cases p with
    | host =>
      obtain rfl : vs = [] := h
      cases hv
    | generated header signature body =>
      obtain rfl : vs = [⟨header.id, body, s⟩] := h
      obtain rfl := List.mem_singleton.mp hv
      refine .inl ?_
      rw [perform, Procedure.runOn_listing, he]
      rfl
  | invoke p args =>
    have herror := Activity.Visits.error h hv he
    rw [Activity.task, runOn_map, map_eq_error_iff] at herror
    exact .inr (congrArg Answer.returned herror)

end Operation

end CallAdapter
