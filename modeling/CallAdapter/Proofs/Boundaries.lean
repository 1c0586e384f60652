import CallAdapter.Proofs.Running
import CallAdapter.Proofs.Slots

/-!
# Type safety at the boundaries of procedures

Bodies are not checked before they run: they may be any bytes, refer to any tables and store zero
values of any type through an address. Still, every value that crosses from one procedure to another
fits the slot that is declared for it.

* A generated procedure returns what fits its result type. Only `ret` ends a run
  (`Frame.finish_of_step`, `finish_of_steps`), and it puts the result into its slot.
* A host function is called with as many arguments as it has parameters, each fitting. To say this of
  all host functions that a call reaches, `Procedure.alarmed` puts an alarm in front of every one of
  them, which may do anything; `Procedure.invoke_alarmed` says that none ever goes off.
* What the stack hands on to a callee is received there as it is (`receive_of_call`).
-/

namespace CallAdapter

open Machine Value

/-! ### Results -/

namespace Task

variable {ε α β : Type}

/-- Sequences that begin with the same outcome are equal if they go on alike where it is a
success. -/
theorem ofExcept_bind_congr {x : Except ε α} {f g : α → Task ε β}
    (h : ∀ a, x = .ok a → f a = g a) : ofExcept x >>= f = ofExcept x >>= g := by
  cases x with
  | error e => rfl
  | ok a => exact h a rfl

end Task

namespace Machine

variable {c : Context} {s : Store} {v : Value}

/-- The only instruction that ends a run is the one that returns. -/
theorem Frame.finish_of_step {f : Frame} {offset : Nat} {i : Instruction Link}
    (h : ((f.step c offset i).runOn s).1 = .ok (.done v)) : f.finish c offset = .ok v := by
  have hnext : ∀ x : Run Frame, ((Progress.next <$> x).runOn s).1 ≠ .ok (.done v) := by
    intro x hx
    obtain ⟨f', -, hf'⟩ := Task.ok_of_map hx
    cases hf'
  unfold Frame.step at h
  -- Left over are the instructions that take a slot off the stack, and the return.
  split at h <;> first
    | cases h
    | exact absurd h (hnext _)
    | skip
  · obtain ⟨_, _, _, h⟩ := Task.ok_of_bind h
    cases h
  · obtain ⟨_, _, _, h⟩ := Task.ok_of_bind h
    cases h
  · obtain ⟨_, _, _, h⟩ := Task.ok_of_bind h
    obtain ⟨_, _, _, h⟩ := Task.ok_of_bind h
    obtain ⟨_, -, h⟩ := Task.ok_of_map h
    cases h
  · obtain ⟨w, hw, hdone⟩ := Task.ok_of_map h
    cases hdone
    exact hw

theorem finish_of_steps {code : List (Placed Link)} {f : Frame}
    (h : ((steps c code f).runOn s).1 = .ok (.done v)) :
    ∃ f' offset, Frame.finish c f' offset = .ok v := by
  induction code generalizing f s with
  | nil => cases h
  | cons p ps ih =>
    obtain ⟨progress, s', hstep, hrest⟩ := Task.ok_of_bind h
    cases progress with
    | next f' => exact ih hrest
    | done w =>
      cases hrest
      exact ⟨f, p.offset, Frame.finish_of_step (congrArg Prod.fst hstep)⟩

theorem Frame.fits_of_finish {f : Frame} {offset : Nat} (h : f.finish c offset = .ok v) :
    v.Fits c.result ∧ (c.result = .unit → v = .unit) := by
  unfold Frame.finish at h
  split at h
  · next hunit =>
    cases h
    rw [hunit]
    exact ⟨.inl rfl, fun _ => rfl⟩
  · next hunit =>
    obtain ⟨⟨w, f'⟩, -, h⟩ := exists_of_bind_eq_ok h
    simp only at h
    split at h
    · next w' hw' =>
      cases h
      exact ⟨fits_of_asSlot? hw', fun hresult => absurd hresult hunit⟩
    · cases h

end Machine

theorem fits_of_invoke {header : Header} {signature : Signature} {body : Body Callee}
    {args : List Value} {s : Store} {v : Value}
    (h : (((Procedure.generated header signature body).invoke args).runOn s).1 = .ok v) :
    v.Fits signature.result ∧ (signature.result = .unit → v = .unit) := by
  rw [Procedure.invoke] at h
  obtain ⟨received, -, h⟩ := Task.ok_of_ofExcept_bind h
  obtain ⟨code, _, -, h⟩ := Task.ok_of_bind h
  obtain ⟨zeros, _, -, h⟩ := Task.ok_of_bind h
  obtain ⟨progress, _, hsteps, h⟩ := Task.ok_of_bind h
  cases progress with
  | next f => cases h
  | done w =>
    cases h
    obtain ⟨f, offset, hfinish⟩ := finish_of_steps (congrArg Prod.fst hsteps)
    exact Frame.fits_of_finish hfinish

/-! ### Host functions -/

def Value.isNull : Value → Bool
  | .null => true
  | _ => false

theorem Value.isNull_iff (v : Value) : v.isNull = true ↔ v = .null := by
  cases v <;> simp [isNull]

instance (v : Value) (t : ValueType) : Decidable (v.Fits t) :=
  decidable_of_iff (v.isInstance t = true ∨ v.isNull = true ∧ t.isValueType = false)
    (by rw [Value.isNull_iff, Value.Fits])

/-- The function with an alarm in front of it. If there are too few or too many arguments, or one of
them does not fit its parameter, the alarm answers in place of the function. -/
def alarmedFunction (alarm : HostFunction) (signature : Signature) (function : HostFunction) :
    HostFunction := fun args =>
  if List.Forall₂ (fun v p => v.Fits p.type) args signature.params then function args
  else alarm args

mutual

/-- The procedure with an alarm in front of every host function that it can reach. -/
def Procedure.alarmed (alarm : HostFunction) : Procedure → Procedure
  | .host id name signature function =>
    .host id name signature (alarmedFunction alarm signature function)
  | .generated header signature body => .generated header signature (alarmedBody alarm body)

def alarmedBody (alarm : HostFunction) : Body Callee → Body Callee
  | ⟨code, locals, tables⟩ => ⟨code, locals, alarmedTables alarm tables⟩

def alarmedTables (alarm : HostFunction) : Tables Callee → Tables Callee
  | ⟨strings, methods, types⟩ => ⟨strings, alarmedAll alarm methods, types⟩

def alarmedAll (alarm : HostFunction) : List Callee → List Callee
  | [] => []
  | callee :: callees => callee.alarmed alarm :: alarmedAll alarm callees

def Callee.alarmed (alarm : HostFunction) : Callee → Callee
  | .procedure p => .procedure (p.alarmed alarm)
  | .wrapper t => .wrapper t

end

theorem alarmedAll_eq (alarm : HostFunction) (callees : List Callee) :
    alarmedAll alarm callees = callees.map (Callee.alarmed alarm) := by
  induction callees with
  | nil => rfl
  | cons callee callees ih => simp [alarmedAll, ih]

/-- Alarms change neither the name nor the signature of a callee, so a callee whose calls they do not
change stays the same to the machine. -/
theorem link_alarmed {alarm : HostFunction} {p : Procedure} (h : (p.alarmed alarm).invoke = p.invoke) :
    ((Callee.procedure p).alarmed alarm).link = (Callee.procedure p).link := by
  have hsignature : (p.alarmed alarm).signature = p.signature := by
    cases p <;> simp [Procedure.alarmed, Procedure.signature]
  have hname : (p.alarmed alarm).name = p.name := by
    cases p <;> simp [Procedure.alarmed, Procedure.name]
  simp [Callee.alarmed, Callee.link, Callee.text, hsignature, hname, h]

/-- No alarm goes off. -/
theorem Procedure.invoke_alarmed (alarm : HostFunction) (p : Procedure) :
    (p.alarmed alarm).invoke = p.invoke := by
  induction p using Procedure.induction with
  | host id name signature function =>
    -- Only what was received is passed on, and that fits.
    funext args
    rw [Procedure.alarmed, Procedure.invoke, Procedure.invoke]
    apply Task.ofExcept_bind_congr
    intro received hreceived
    rw [alarmedFunction, if_pos (fits_of_receive hreceived)]
  | generated header signature body ih =>
    -- The calls from the body are the same, so the linked bodies are.
    have hlinks : linkBody (alarmedBody alarm body) = linkBody body := by
      obtain ⟨code, locals, strings, methods, types⟩ := body
      have hmethods : (methods.map (Callee.alarmed alarm)).map Callee.link
          = methods.map Callee.link := by
        rw [List.map_map]
        apply List.map_congr_left
        intro callee hcallee
        cases callee with
        | procedure p => exact link_alarmed (ih p hcallee)
        | wrapper t => rfl
      simp only [alarmedBody, alarmedTables, alarmedAll_eq, linkBody, linkTables, linkAll_eq, hmethods]
    have hlocals : (alarmedBody alarm body).locals = body.locals := by
      obtain ⟨code, locals, tables⟩ := body
      rfl
    funext args
    rw [Procedure.alarmed, Procedure.invoke, Procedure.invoke, hlinks, hlocals]

/-! ### Calls -/

theorem length_of_popValues {f f' : Frame} {offset n : Nat} {vs : List Value}
    (h : f.popValues offset n = .ok (vs, f')) : vs.length = n := by
  unfold Frame.popValues at h
  split at h
  · cases h
  · next hdeep =>
    -- The stack was deep enough, so what was taken off it is `n` slots.
    split at h
    · next ws hws =>
      cases h
      have hlen := congrArg List.length (eq_map_of_mapM_value? hws)
      rw [List.length_reverse, List.length_take, List.length_map] at hlen
      omega
    · cases h

/-- Whatever the stack hands on to a procedure is received there, and as it is. -/
theorem receive_of_call {callee : Procedure} {f f' : Frame} {offset : Nat} {vs args : List Value}
    (hpop : f.popValues offset (Callee.procedure callee).link.params.length = .ok (vs, f'))
    (hslots : fitAll asSlot? (Callee.procedure callee).link.text 0
      (Callee.procedure callee).link.params vs = .ok args) :
    callee.signature.receive callee.name args = .ok args := by
  have hlen : vs.length = callee.signature.params.length := by
    rw [length_of_popValues hpop]
    simp [Callee.link, Signature.types]
  apply receive_of_fits
  exact forall₂_fits_of_zipWith (fun _ _ _ => fits_of_asSlot?) hlen (zipWith_of_fitAll hslots)

/-! ### The main theorem -/

/-- **Type safety at every boundary, for any body.** What a generated procedure returns fits its
result type, and is the unit value if that is the unit type. Every host function in reach can be given
an alarm, which may do anything and answers unless the function gets its number of arguments and each
of them fits: the call runs as it does without. And when a call has put the values from the stack into
the slots of the callee's parameters, the callee receives exactly these. -/
theorem invoke_type_safe (header : Header) (signature : Signature) (body : Body Callee)
    (args : List Value) :
    (∀ s v, (((Procedure.generated header signature body).invoke args).runOn s).1 = .ok v →
      v.Fits signature.result ∧ (signature.result = .unit → v = .unit)) ∧
    (∀ alarm, ((Procedure.generated header signature body).alarmed alarm).invoke args
      = (Procedure.generated header signature body).invoke args) ∧
    ∀ (callee : Procedure) (f f' : Frame) (offset : Nat) (vs ws : List Value),
      f.popValues offset (Callee.procedure callee).link.params.length = .ok (vs, f') →
      fitAll asSlot? (Callee.procedure callee).link.text 0
        (Callee.procedure callee).link.params vs = .ok ws →
      callee.signature.receive callee.name ws = .ok ws := by
  refine ⟨fun s v => fits_of_invoke, fun alarm => ?_, ?_⟩
  · rw [Procedure.invoke_alarmed]
  · intro callee f f' offset vs ws hpop hslots
    exact receive_of_call hpop hslots

/-- The body turns its text argument into the integer zero through its address and calls `f` with it.
What `f` returns is not what it declares. -/
theorem invoke_type_safe_overwritten_argument :
    ∃ f body, f = Procedure.host 1 "f" ⟨[.ofType .i64], .str⟩ (fun _ => .ok (.i32 511)) ∧
      body = (⟨[0x0F, 0x00, 0xFE, 0x15, 0x01, 0x00, 0x00, 0x1B, 0x02, 0x28, 0x01, 0x00, 0x00, 0x0A,
        0x2A], [], ⟨[], [.procedure f], [.i32]⟩⟩ : Body Callee) ∧
      (((Procedure.generated ⟨2, "g", 0⟩ ⟨[.ofType .str], .u8⟩ body).invoke [.str "x"]).runOn
        .empty).1 = .ok (.u8 255) ∧
      (Value.u8 255).Fits .u8 ∧
      (((Procedure.generated ⟨2, "g", 0⟩ ⟨[.ofType .str], .u8⟩ body).alarmed
        fun _ => .error (.host "alarm")).invoke [.str "x"]).runOn .empty
        = ((Procedure.generated ⟨2, "g", 0⟩ ⟨[.ofType .str], .u8⟩ body).invoke [.str "x"]).runOn
          .empty ∧
      f.signature.receive "f" [.i64 0] = .ok [.i64 0] := by
  obtain ⟨f, hf⟩ : ∃ f, f = Procedure.host 1 "f" ⟨[.ofType .i64], .str⟩
    (fun _ => .ok (.i32 511)) := ⟨_, rfl⟩
  obtain ⟨body, hbody⟩ : ∃ body, body = (⟨[0x0F, 0x00, 0xFE, 0x15, 0x01, 0x00, 0x00, 0x1B, 0x02,
    0x28, 0x01, 0x00, 0x00, 0x0A, 0x2A], [], ⟨[], [.procedure f], [.i32]⟩⟩ : Body Callee) :=
    ⟨_, rfl⟩
  have hrun : (((Procedure.generated ⟨2, "g", 0⟩ ⟨[.ofType .str], .u8⟩ body).invoke
      [.str "x"]).runOn .empty).1 = .ok (.u8 255) := by
    subst hf hbody
    cbv
  obtain ⟨hresult, halarm, hcall⟩ := invoke_type_safe ⟨2, "g", 0⟩ ⟨[.ofType .str], .u8⟩ body
    [.str "x"]
  refine ⟨f, body, hf, hbody, hrun, (hresult .empty _ hrun).1, by rw [halarm], ?_⟩
  subst hf
  exact hcall (.host 1 "f" ⟨[.ofType .i64], .str⟩ _) ⟨[], [], [.value (.i32 0)]⟩ ⟨[], [], []⟩ 9
    [.i32 0] [.i64 0] rfl rfl

end CallAdapter
