import CallAdapter.Adapt.Assemble
import CallAdapter.Proofs.Encoding
import CallAdapter.Proofs.Loading

/-!
# Running an adapter

An adapter pushes the arguments of its target, calls it and returns. Each argument is either one of
the adapter's own or a constant: its `Source`. `Fetches` says which code goes with which sources.
All that is needed of such code is shown once, by induction on `Fetches`: it calls nothing but
wrappers, it has few operands that need rows in the tables, and it pushes the values of its sources.

`Fetches.gives_invoke` puts the parts together. It goes through the whole life of a body: the draft
is encoded, its callees are linked, the bytes are decoded again and the instructions are run.
-/

namespace CallAdapter

open Machine Value

variable {κ : Type}

/-! ### Sources of arguments -/

/-- Where an argument of the target comes from. -/
inductive Source where
  /-- From the adapter's own arguments. -/
  | argument (index : UInt8)
  /-- A constant for a parameter of the given type. -/
  | constant (v : Option Value) (t : ValueType)

/-- What is pushed for a source, given the adapter's own arguments. -/
def Source.pushed? (args : List Value) : Source → Option Value
  | .argument index => args[index.toNat]?
  | .constant v t => some (loadedValue v t)

/-- The code that pushes the arguments from given sources, and how it changes the local slots that
have been asked for. -/
inductive Fetches : Locals → List Source → List (Instruction Callee) → Locals → Prop
  | nil {locals : Locals} : Fetches locals [] [] locals
  | argument {locals locals' : Locals} {sources : List Source} {code : List (Instruction Callee)}
      (index : UInt8) : Fetches locals sources code locals' →
      Fetches locals (.argument index :: sources) (.loadArgument index :: code) locals'
  | constant {v : Option Value} {t : ValueType} {locals locals' locals'' : Locals}
      {sources : List Source} {head code : List (Instruction Callee)} :
      LoadedBy t locals v (head, locals') → Fetches locals' sources code locals'' →
      Fetches locals (.constant v t :: sources) (head ++ code) locals''

theorem declaredDefault_eq_ok {p : Parameter} {position : Nat} {v : Value}
    (h : p.declaredDefault position = .ok v) : p.default = some v := by
  unfold Parameter.declaredDefault at h
  split at h
  · next w hw =>
    cases h
    exact hw
  · cases h

/-! ### What the code of adapters consists of -/

/-- The only callees in the code are constructors of wrappers. -/
def WrappersOnly (code : List (Instruction Callee)) : Prop :=
  ∀ i ∈ code, ∀ callee, i.operand = .method callee → ∃ u, callee = .wrapper u

theorem kind_loadArgument (index : UInt8) :
    (Instruction.loadArgument index : Instruction κ).operand.kind ∉ tokenKinds := by
  unfold Instruction.loadArgument
  split <;> simp [Instruction.bare, Operand.kind, tokenKinds]

theorem kind_loadLocal (index : UInt8) :
    (Instruction.loadLocal index : Instruction κ).operand.kind ∉ tokenKinds := by
  unfold Instruction.loadLocal
  split <;> simp [Instruction.bare, Operand.kind, tokenKinds]

theorem kind_literal {v : Value} {i : Instruction κ} (h : v.literal? = some i) :
    i.operand.kind ≠ .method := by
  cases v <;> cases h <;> simp [Operand.kind, Instruction.bare]

theorem countP_cons_of_kind_ne {kind : OperandKind} {i : Instruction κ} (h : i.operand.kind ≠ kind)
    (is : List (Instruction κ)) :
    (i :: is).countP (·.operand.kind = kind) = is.countP (·.operand.kind = kind) :=
  List.countP_cons_of_neg (by simpa using h)

/-- Loading a constant refers to each table at most once. -/
theorem LoadedBy.count_le {t : ValueType} {locals locals' : Locals} {v : Option Value}
    {code : List (Instruction Callee)} (h : LoadedBy t locals v (code, locals'))
    {kind : OperandKind} (hkind : kind ∈ tokenKinds) :
    code.countP (·.operand.kind = kind) ≤ 1 := by
  cases h with
  | absent =>
    have hload := ne_of_mem_of_not_mem hkind
      (kind_loadLocal (κ := Callee) (UInt8.ofNat locals.size))
    have haddress : (Instruction.loadLocalAddress (UInt8.ofNat locals.size) :
        Instruction Callee).operand.kind ≠ kind := by
      rintro rfl
      simp [tokenKinds, Instruction.loadLocalAddress, Operand.kind] at hkind
    rw [countP_cons_of_kind_ne haddress, List.countP_cons, countP_cons_of_kind_ne hload.symm,
      List.countP_nil]
    split <;> omega
  | plain => exact List.countP_le_length
  | @wrapped _ u _ _ _ _ hi =>
    -- The constructor is the one callee, so the literal and it are never counted together.
    by_cases hmethod : OperandKind.method = kind
    · subst hmethod
      rw [countP_cons_of_kind_ne (kind_literal hi)]
      exact List.countP_le_length
    · rw [List.countP_cons, countP_cons_of_kind_ne (i := ⟨.newobj, .method (Callee.wrapper u)⟩)
        hmethod, List.countP_nil]
      split <;> omega

theorem LoadedBy.wrappersOnly {t : ValueType} {locals locals' : Locals} {v : Option Value}
    {code : List (Instruction Callee)} (h : LoadedBy t locals v (code, locals')) :
    WrappersOnly code := by
  intro i hi callee hcallee
  have hmethod : i.operand.kind = .method := by rw [hcallee]; rfl
  -- Of the instructions that load a constant, one has a callee: the constructor of the wrapper.
  cases h with
  | absent =>
    simp at hi
    rcases hi with rfl | rfl | rfl
    · cases hcallee
    · cases hcallee
    · have hload := kind_loadLocal (κ := Callee) (UInt8.ofNat locals.size)
      simp [hmethod, tokenKinds] at hload
  | plain _ _ _ hliteral =>
    obtain rfl := List.mem_singleton.mp hi
    exact absurd hmethod (kind_literal hliteral)
  | @wrapped _ u _ _ _ _ hliteral =>
    simp at hi
    rcases hi with rfl | rfl
    · exact absurd hmethod (kind_literal hliteral)
    · cases hcallee
      exact ⟨u, rfl⟩

theorem LoadedBy.size_le {t : ValueType} {locals locals' : Locals} {v : Option Value}
    {code : List (Instruction Callee)} (h : LoadedBy t locals v (code, locals')) :
    locals.size ≤ locals'.size := by
  cases h with
  | absent => simp [Locals.size]
  | plain | wrapped => exact Nat.le_refl _

namespace Fetches

variable {locals locals' : Locals} {sources : List Source} {code : List (Instruction Callee)}

theorem count_le (h : Fetches locals sources code locals') {kind : OperandKind}
    (hkind : kind ∈ tokenKinds) : code.countP (·.operand.kind = kind) ≤ sources.length := by
  induction h with
  | nil => simp
  | argument index _ ih =>
    have hne := ne_of_mem_of_not_mem hkind (kind_loadArgument (κ := Callee) index)
    rw [countP_cons_of_kind_ne hne.symm, List.length_cons]
    omega
  | constant hload _ ih =>
    have hhead := hload.count_le hkind
    simp only [List.countP_append, List.length_cons]
    omega

theorem wrappersOnly (h : Fetches locals sources code locals') : WrappersOnly code := by
  induction h with
  | nil => simp [WrappersOnly]
  | argument index _ ih =>
    intro i hi callee hcallee
    rcases List.mem_cons.mp hi with rfl | hi
    · have hload := kind_loadArgument (κ := Callee) index
      simp [hcallee, Operand.kind, tokenKinds] at hload
    · exact ih i hi callee hcallee
  | constant hload _ ih =>
    intro i hi callee hcallee
    rcases List.mem_append.mp hi with hi | hi
    · exact hload.wrappersOnly i hi callee hcallee
    · exact ih i hi callee hcallee

theorem size_le (h : Fetches locals sources code locals') : locals.size ≤ locals'.size := by
  induction h with
  | nil => exact Nat.le_refl _
  | argument _ _ ih => exact ih
  | constant hload _ ih => exact hload.size_le.trans ih

/-- The code pushes the values of its sources in order. -/
theorem gives_steps (h : Fetches locals sources code locals') (c : Context) {args ws : List Value}
    (hws : sources.map (Source.pushed? args) = ws.map some) {ps : List (Placed Link)}
    (hps : ps.map Placed.instruction = linkCode code) {f : Frame} (hargs : f.args = args)
    (hroom : locals'.size ≤ f.locals.length) :
    ∃ slots, (steps c ps f).Gives
      (.ok (.next ⟨args, slots, (ws.map Slot.value).reverse ++ f.stack⟩)) := by
  induction h generalizing ws ps f with
  | nil =>
    obtain rfl := List.map_eq_nil_iff.mp hps
    obtain rfl := List.map_eq_nil_iff.mp hws.symm
    subst hargs
    exact ⟨f.locals, gives_steps_nil c f⟩
  | argument index _ ih =>
    obtain ⟨w, ws, rfl, hw, hws⟩ := List.map_eq_cons_iff.mp hws.symm
    obtain ⟨p, ps, rfl, hp, hps⟩ := List.map_eq_cons_iff.mp hps
    have hload := gives_loadArgument c (f := f) p.offset index (by rw [hargs]; exact hw.symm)
    rw [← map_loadArgument Callee.link, ← hp] at hload
    obtain ⟨slots, hrest⟩ := ih hws.symm hps (f := f.pushValue w) hargs hroom
    refine ⟨slots, gives_steps_cons hload ?_⟩
    simpa [Frame.pushValue, Frame.push] using hrest
  | constant hload hfetches ih =>
    -- Loading may set a new local, for which the frame has room since later code asks for no less.
    obtain ⟨w, ws, rfl, hw, hws⟩ := List.map_eq_cons_iff.mp hws.symm
    obtain ⟨head, rest, rfl, hhead, hrest⟩ := List.map_eq_append_iff.mp
      (hps.trans List.map_append)
    obtain ⟨slots, hslots, -, hconstant⟩ := steps_loadConstant c hload hhead f
      (hfetches.size_le.trans hroom)
    have hroom' := hslots ▸ hroom
    obtain ⟨slots', hfinal⟩ := ih hws.symm hrest (f := Frame.pushValue { f with locals := slots } w)
      hargs hroom'
    rw [← Option.some.inj hw] at hconstant
    refine ⟨slots', gives_steps_append hconstant ?_⟩
    simpa [Frame.pushValue, Frame.push] using hfinal

end Fetches

/-! ### The call and the return -/

/-- What a procedure makes of the result of the call that it ends with: nothing if it has no result,
and else the value put into the slot of its result. -/
def delivered (procedure : String) (t : ValueType) (r : Value) : Except RunError Value :=
  if t = .unit then .ok .unit
  else
    match r.asSlot? t with
    | some w => .ok w
    | none => .error (.argumentType procedure 0 t r.typeName)

/-- Returning right after a call delivers what was called for. -/
theorem finish_after_call (c : Context) (f : Frame) (offset : Nat) (r : Value) :
    Frame.finish c (if c.result = .unit then f else f.pushValue r) offset
      = delivered c.procedure c.result r := by
  unfold Frame.finish delivered
  split
  · rfl
  · cases hslot : r.asSlot? c.result <;>
      simp [Frame.popValue, Frame.pop, Frame.pushValue, Frame.push, Slot.value?, bind, Except.bind,
        hslot, pure, Except.pure, throw, throwThe, MonadExceptOf.throw]

theorem steps_call (c : Context) {p : Placed Link} {callee : Link}
    (hp : p.instruction = ⟨.call, .method callee⟩) (ps : List (Placed Link)) (f : Frame) :
    steps c (p :: ps) f = f.call p.offset callee >>= steps c ps := by
  rw [steps, hp]
  exact bind_map_left Progress.next _ _

theorem gives_return (c : Context) {p : Placed Link} (hp : p.instruction = .bare .ret) (f : Frame) :
    (steps c [p] f).Gives (Progress.done <$> f.finish c p.offset) := by
  have hsteps : steps c [p] f = Progress.done <$> Task.ofExcept (f.finish c p.offset) := by
    rw [steps, hp]
    exact (bind_map_left Progress.done _ _).trans (bind_pure_comp _ _)
  rw [hsteps]
  exact (Task.gives_ofExcept _).map _

/-- A call of the target and the return after it deliver what the target gives for the values on the
stack, once these are in the slots of its parameters. -/
theorem gives_call_return (c : Context) {target : Procedure}
    (hresult : c.result = target.signature.result)
    {outcome : List Value → Except RunError Value}
    (houtcome : ∀ args, (target.invoke args).Gives (outcome args)) {ps : List (Placed Link)}
    (hps : ps.map Placed.instruction
      = linkCode [⟨.call, .method (.procedure target)⟩, .bare .ret])
    {f : Frame} {ws : List Value} (hstack : f.stack = (ws.map Slot.value).reverse)
    (hlen : ws.length = target.signature.arity) :
    (steps c ps f).Gives (Progress.done <$> (do
      let args ← fitAll Value.asSlot? (Callee.procedure target).text 0 target.signature.types ws
      let r ← outcome args
      delivered c.procedure target.signature.result r)) := by
  obtain ⟨p, _, rfl, hp, hps⟩ := List.map_eq_cons_iff.mp hps
  obtain ⟨q, _, rfl, hq, hps⟩ := List.map_eq_cons_iff.mp hps
  obtain rfl := List.map_eq_nil_iff.mp hps
  have hlen' : ws.length = (Callee.procedure target).link.params.length := by
    simpa [Callee.link, Signature.types, Signature.arity] using hlen
  have hcall := gives_call p.offset (Callee.procedure target).link ws [] outcome
    (hstack.trans (List.append_nil _).symm) hlen' houtcome
  have hrun := hcall.bind fun f _ => gives_return c hq f
  rw [steps_call c hp]
  simpa [Callee.link, ← hresult, finish_after_call] using hrun

/-! ### The whole adapter -/

/-- The code of an adapter: what pushes the arguments, the call and the return. -/
def adapterCode (code : List (Instruction Callee)) (target : Procedure) :
    List (Instruction Callee) :=
  code ++ [⟨.call, .method (.procedure target)⟩, .bare .ret]

theorem assemble_eq_ok {header : Header} {params : List Parameter} {target g : Procedure}
    {code : List (Instruction Callee)} {locals : Locals} {s : Store}
    (h : ((assemble header params target code locals).runOn s).1 = .ok g) :
    ∃ body, Draft.finish ⟨adapterCode code target, locals⟩ = .ok body ∧
      g = .generated header ⟨params, target.signature.result⟩ body := by
  obtain ⟨body, hbody, h⟩ := Task.ok_of_ofExcept_bind h
  cases h
  exact ⟨body, hbody, rfl⟩

theorem callee_of_adapterCode {code : List (Instruction Callee)} (hcode : WrappersOnly code)
    {target : Procedure} {i : Instruction Callee} (hi : i ∈ adapterCode code target)
    {callee : Callee} (hcallee : i.operand = .method callee) :
    callee = .procedure target ∨ ∃ u, callee = .wrapper u := by
  rcases List.mem_append.mp hi with hi | hi
  · exact .inr (hcode i hi callee hcallee)
  · simp at hi
    rcases hi with rfl | rfl
    · cases hcallee
      exact .inl rfl
    · cases hcallee

/-- The target is the only procedure that is called, so callees that are the same are equal. -/
theorem WrappersOnly.callee_eq {code : List (Instruction Callee)} (h : WrappersOnly code)
    {target : Procedure} {i j : Instruction Callee} (hi : i ∈ adapterCode code target)
    (hj : j ∈ adapterCode code target) {a c : Callee} (ha : i.operand = .method a)
    (hc : j.operand = .method c) (hac : (a == c) = true) : a = c := by
  rcases callee_of_adapterCode h hi ha with rfl | ⟨u, rfl⟩ <;>
    rcases callee_of_adapterCode h hj hc with rfl | ⟨u', rfl⟩
  · rfl
  · cases hac
  · cases hac
  · rw [eq_of_beq (show (u == u') = true from hac)]

namespace Fetches

variable {locals : Locals} {sources : List Source} {code : List (Instruction Callee)}
  {target : Procedure} {body : Body Callee}

/-- The body of an adapter decodes to its code, with the calls to its callees. -/
theorem decode_linkBody (h : Fetches .empty sources code locals)
    (hcount : sources.length + 1 < Token.rowLimit)
    (hfinish : Draft.finish ⟨adapterCode code target, locals⟩ = .ok body) :
    ∃ ps, (linkBody body).decode = .ok ps ∧
      ps.map Placed.instruction = linkCode (adapterCode code target) := by
  -- Each source takes one row at most in each table, and the call one more.
  have hfits : body.tables.Addressable := by
    refine Draft.addressable_of_count hfinish fun kind hkind => ?_
    have hle := h.count_le hkind
    have htail : [⟨.call, .method (.procedure target)⟩, .bare .ret].countP
        (fun i : Instruction Callee => i.operand.kind = kind) ≤ 1 := by
      have hne : (Instruction.bare .ret : Instruction Callee).operand.kind ≠ kind := by
        rintro rfl
        simp [Instruction.bare, Operand.kind, tokenKinds] at hkind
      rw [List.countP_cons, countP_cons_of_kind_ne hne, List.countP_nil]
      split <;> omega
    simp only [adapterCode, List.countP_append]
    omega
  obtain ⟨ps, hps, hinstructions⟩ := Draft.decode_eq hfinish hfits
    fun i hi j hj a c ha hc hac => h.wrappersOnly.callee_eq hi hj ha hc hac
  refine ⟨ps.map (Placed.map Callee.link), ?_, ?_⟩
  · rw [linkBody_eq, Body.decode_map, hps]
    rfl
  · have hcode : ps.map Placed.instruction = adapterCode code target := hinstructions
    rw [linkCode, ← hcode]
    simp [Placed.map]

/-- A call of an adapter, once its arguments are received, is a call of its target on what the
sources give. -/
theorem gives_invoke (h : Fetches .empty sources code locals)
    (hcount : sources.length + 1 < Token.rowLimit)
    (hsources : sources.length = target.signature.arity)
    (hfinish : Draft.finish ⟨adapterCode code target, locals⟩ = .ok body)
    {outcome : List Value → Except RunError Value}
    (houtcome : ∀ args, (target.invoke args).Gives (outcome args)) {header : Header}
    {params : List Parameter} {args received ws : List Value}
    (hreceive : Signature.receive ⟨params, target.signature.result⟩ header.name args
      = .ok received)
    (hws : sources.map (Source.pushed? received) = ws.map some) :
    ((Procedure.generated header ⟨params, target.signature.result⟩ body).invoke args).Gives (do
      let args ← fitAll Value.asSlot? (Callee.procedure target).text 0 target.signature.types ws
      let r ← outcome args
      delivered header.name target.signature.result r) := by
  obtain ⟨ps, hdecode, hps⟩ := h.decode_linkBody hcount hfinish
  obtain ⟨-, hlocals⟩ := Draft.finish_eq_ok hfinish
  obtain ⟨front, back, rfl, hfront, hback⟩ := List.map_eq_append_iff.mp
    (hps.trans List.map_append)
  have hlen : ws.length = target.signature.arity := by
    have := congrArg List.length hws
    simpa [hsources, eq_comm] using this
  have hdecoded := Task.gives_decode header.id (linkBody body)
  rw [hdecode] at hdecoded
  rw [Procedure.invoke, hreceive]
  refine (Task.gives_ofExcept _).bind_ok (hdecoded.bind_ok ?_)
  refine (Task.gives_mapM (Task.gives_initial header.resolver) body.locals).bind_ok ?_
  -- The code pushes the values of the sources; then the call and the return follow.
  obtain ⟨slots, hpush⟩ := h.gives_steps ⟨header.name, target.signature.result, header.resolver⟩
    hws hfront (f := ⟨received, body.locals.map ValueType.initial, []⟩) rfl
    (by simp [hlocals, Locals.size])
  have hcall := gives_call_return ⟨header.name, target.signature.result, header.resolver⟩ rfl
    houtcome hback (f := ⟨received, slots, (ws.map Slot.value).reverse ++ []⟩) (by simp) hlen
  exact gives_run (gives_steps_append hpush hcall)

end Fetches

end CallAdapter
