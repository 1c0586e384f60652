import CallAdapter.Proofs.Agreement
import CallAdapter.Proofs.Reencoding

/-!
# The zero value as a default

A parameter can be set to the zero value of its type in two ways. Binding asks the resolver for the zero
value and writes it into the code as a constant; adapting with an absent value has the code initialise
a local slot. The main theorem, `bindAt_type_default`, says for which value types the two agree.

Adapting works for all of them, and the target receives the zero value. So does binding, except for
records and the unit type: their zero value is there, but it cannot be written into code
(`ValueType.isUnwritable`), and the binding is refused.
-/

namespace CallAdapter

open Machine Value

/-! ### Zero values as constants -/

/-- The type has values that are never absent and that code cannot hold. -/
def ValueType.isUnwritable : ValueType → Bool
  | .unit | .struct _ _ => true
  | _ => false

section Zero

variable {t : ValueType}

theorem isSimple_of_isValueType (h : t.isValueType = true) : t.isSimple = true := by
  simp [ValueType.isSimple, h]

theorem exists_loadConstant_none (h : t.isSimple = true) :
    ∃ out, loadConstant none t .empty = .ok out := by
  rw [loadConstant_eq, writeConstant_absent h rfl]
  exact ⟨_, rfl⟩

/-- A zero value that can be written into code is a constant. -/
theorem exists_loadConstant_zero (hvalue : t.isValueType = true)
    (hwritable : t.isUnwritable = false) : ∃ out, loadConstant t.zero? t .empty = .ok out := by
  cases t with
  | unit | struct => cases hwritable
  | str | object | reference => cases hvalue
  | nullable t =>
    show ∃ out, loadConstant (some .empty) (.nullable t) .empty = .ok out
    rw [loadConstant_absent rfl]
    exact exists_loadConstant_none rfl
  | _ => exact ⟨_, rfl⟩

theorem loadConstant_zero_of_isUnwritable (h : t.isUnwritable = true) (locals : Locals) :
    loadConstant t.zero? t locals = .error (.unsupportedType t) := by
  cases t with
  | unit => rfl
  | struct name fields =>
    have hinst : (ValueType.initial (.struct name fields)).isInstance (.struct name fields)
        = true := by
      simp [ValueType.initial, isInstance]
    show loadConstant (some (ValueType.initial (.struct name fields))) _ locals = _
    rw [loadConstant_eq, runOn_writeConstant_plain rfl rfl rfl, loadLiteral, if_pos hinst]
    rfl
  | _ => cases h

/-- The zero value arrives as it is. -/
theorem arrived_zero (h : t.isValueType = true) : t.arrived t.zero? = t.initial := by
  cases t with
  | str | object | reference => cases h
  | _ => rfl

end Zero

/-! ### Code that can be encoded -/

/-- Every operand is of the kind that its opcode asks for. -/
def WellFormedCode (code : List (Instruction Callee)) : Prop :=
  ∀ i ∈ code, i.operand.kind = i.op.operandKind

section WellFormed

theorem operandKind_loadArgument (index : UInt8) :
    (Instruction.loadArgument index : Instruction Callee).operand.kind
      = (Instruction.loadArgument index : Instruction Callee).op.operandKind := by
  unfold Instruction.loadArgument
  split <;> rfl

theorem operandKind_loadLocal (index : UInt8) :
    (Instruction.loadLocal index : Instruction Callee).operand.kind
      = (Instruction.loadLocal index : Instruction Callee).op.operandKind := by
  unfold Instruction.loadLocal
  split <;> rfl

theorem operandKind_literal {v : Value} {i : Instruction Callee} (h : v.literal? = some i) :
    i.operand.kind = i.op.operandKind := by
  cases v with
  | bool b =>
    cases h
    cases b <;> rfl
  | u8 | i16 | i32 | i64 | f32 | f64 | str =>
    cases h
    rfl
  | _ => cases h

theorem LoadedBy.wellFormed {t : ValueType} {locals locals' : Locals} {v : Option Value}
    {code : List (Instruction Callee)} (h : LoadedBy t locals v (code, locals')) :
    WellFormedCode code := by
  cases h with
  | absent =>
    simp only [WellFormedCode, List.forall_mem_cons]
    exact ⟨rfl, rfl, operandKind_loadLocal _, by simp⟩
  | plain _ _ _ hi =>
    simp only [WellFormedCode, List.forall_mem_singleton]
    exact operandKind_literal hi
  | wrapped _ _ _ hi =>
    simp only [WellFormedCode, List.forall_mem_cons]
    exact ⟨operandKind_literal hi, rfl, by simp⟩

variable {locals locals' : Locals} {sources : List Source} {code : List (Instruction Callee)}

theorem Fetches.wellFormed (h : Fetches locals sources code locals') : WellFormedCode code := by
  induction h with
  | nil => simp [WellFormedCode]
  | argument index _ ih => exact List.forall_mem_cons.mpr ⟨operandKind_loadArgument index, ih⟩
  | constant hload _ ih => exact List.forall_mem_append.mpr ⟨hload.wellFormed, ih⟩

/-- An adapter can be assembled from any code that fetches arguments. -/
theorem Fetches.exists_finish (h : Fetches locals sources code locals') (target : Procedure) :
    ∃ body, Draft.finish ⟨adapterCode code target, locals'⟩ = .ok body := by
  apply Draft.exists_finish
  refine List.forall_mem_append.mpr ⟨h.wellFormed, ?_⟩
  simp only [List.forall_mem_cons]
  exact ⟨rfl, rfl, by simp⟩

end WellFormed

/-! ### All parameters but one are kept -/

/-- Parameters that are all kept, save for one with a binding of its own. -/
def rolesAround (before : List Parameter) (p : Parameter) (b : Binding) (after : List Parameter) :
    List (Parameter × Binding) :=
  before.map (·, .keep) ++ (p, b) :: after.map (·, .keep)

/-- The procedure takes arguments for the parameters `before` and `after`, and its calls are calls of
the target on these arguments with a value between them. -/
structure CallsAround (target : Procedure) (before after : List Parameter) (z : Value)
    (g : Procedure) : Prop where
  signature_eq : g.signature = ⟨before ++ after, target.signature.result⟩
  refused : ∀ args e s, g.signature.receive g.name args = .error e →
    ((g.invoke args).runOn s).1 = .error e
  passed : ∀ args received s s', g.signature.receive g.name args = .ok received →
    ((g.invoke args).runOn s).1 = (do
      let r ← ((target.invoke
        (received.take before.length ++ z :: received.drop before.length)).runOn s').1
      delivered g.name target.signature.result r)

section Around

variable {before after : List Parameter} {p : Parameter} {b : Binding} {v : Option Value}

theorem keptParams_append_kept (params : List Parameter) (roles : List (Parameter × Binding)) :
    keptParams (params.map (·, .keep) ++ roles) = params ++ keptParams roles := by
  induction params with
  | nil => rfl
  | cons p params ih => exact congrArg (p :: ·) ih

theorem keptParams_around (hb : b.Resolves p v) :
    keptParams (rolesAround before p b after) = before ++ after := by
  have hafter := keptParams_append_kept after []
  rw [List.append_nil] at hafter
  have hbound : keptParams ((p, b) :: after.map (·, .keep)) = after := by
    cases hb <;> simpa [keptParams] using hafter
  rw [rolesAround, keptParams_append_kept, hbound]

theorem Passes.eq_of_kept {params : List Parameter} {received full : List Value}
    (h : Passes (params.map (·, .keep)) received full) : full = received := by
  induction params generalizing received full with
  | nil =>
    cases h
    rfl
  | cons p params ih =>
    cases h with
    | keep h => rw [ih h]
    | bound hresolves => cases hresolves

theorem Passes.eq_of_around (hb : b.Resolves p v) {received full : List Value}
    (h : Passes (rolesAround before p b after) received full) :
    full = received.take before.length ++ p.type.arrived v :: received.drop before.length := by
  induction before generalizing received full with
  | nil =>
    cases h with
    | keep => cases hb
    | bound hresolves _ h => rw [hresolves.eq hb, Passes.eq_of_kept h]; rfl
  | cons q before ih =>
    cases h with
    | keep h => rw [ih h]; rfl
    | bound hresolves => cases hresolves

/-- A procedure whose code fetches the arguments of the kept parameters and a constant between them
passes them on. -/
theorem Fetches.callsAround (header : Header) {target : Procedure} {sources : List Source}
    {code : List (Instruction Callee)} {locals : Locals} {body : Body Callee}
    (h : Fetches .empty sources code locals)
    (hsourced : Sourced 0 (rolesAround before p b after) sources) (hb : b.Resolves p v)
    (htypes : target.signature.types = (before ++ p :: after).map Parameter.type)
    (hkept : before.length + after.length ≤ 256)
    (hfinish : Draft.finish ⟨adapterCode code target, locals⟩ = .ok body) :
    CallsAround target before after (p.type.arrived v)
      (.generated header ⟨before ++ after, target.signature.result⟩ body) where
  signature_eq := rfl
  refused _ _ s hrefused := congrArg Prod.fst (Procedure.runOn_invoke_refused hrefused s)
  passed := by
    intro args received s s' hreceive
    have hroles : (rolesAround before p b after).map (fun role => role.1.type)
        = target.signature.types := by
      simp [rolesAround, htypes, Function.comp_def]
    have hcount : target.signature.arity + 1 < Token.rowLimit := by
      have hlen := congrArg List.length htypes
      simp only [Signature.types, List.length_map, List.length_append, List.length_cons] at hlen
      rw [Signature.arity, hlen, Token.rowLimit]
      omega
    have hbinds := h.binds header hsourced hroles hcount hfinish
    rw [keptParams_around hb] at hbinds
    obtain ⟨full, hpasses, hinvoke⟩ := hbinds.passed args received hreceive
    rw [hinvoke s, ← hpasses.eq_of_around hb, (target.settled_invoke full).gives_runOn s' .empty]
    rfl

end Around

/-! ### Binding -/

section Binding

variable {resolver : ResolverId} {locals : Locals} {p : Parameter}
  {rest : List (Parameter × Binding)}

/-- As long as their indices are bytes, parameters that are kept do not matter to whether the others can
be arranged. -/
theorem gives_arrange_append_kept (position kept : Nat) (params : List Parameter)
    {r : Except BuildError Arrangement} (hkept : kept + params.length ≤ 256)
    (hrest : (arrange resolver (position + params.length) (kept + params.length) locals rest).Gives
      r) :
    ∃ f : Arrangement → Arrangement,
      (arrange resolver position kept locals (params.map (·, .keep) ++ rest)).Gives (f <$> r) := by
  induction params generalizing position kept with
  | nil => exact ⟨id, by rwa [id_map]⟩
  | cons p params ih =>
    rw [List.length_cons] at hkept hrest
    rw [← Nat.add_assoc, Nat.add_right_comm, ← Nat.add_assoc, Nat.add_right_comm kept] at hrest
    obtain ⟨f, hf⟩ := ih (position + 1) (kept + 1) (by omega) hrest
    -- The index is a byte because all of them are; then the parameter only adds its load.
    have hindex : shortIndex .argument kept = .ok (UInt8.ofNat kept) := if_pos (by omega)
    refine ⟨fun a => ⟨.loadArgument (UInt8.ofNat kept) :: (f a).code, (f a).locals,
      p :: (f a).params⟩, ?_⟩
    rw [List.map_cons, List.cons_append, arrange, hindex]
    refine (Task.gives_ofExcept _).bind_ok ?_
    have hcons := hf.bind fun a _ => Task.gives_pure (Arrangement.mk
      (.loadArgument (UInt8.ofNat kept) :: a.code) a.locals (p :: a.params))
    cases r <;> exact hcons

theorem gives_arrange_type {position kept : Nat} {out : List (Instruction Callee) × Locals}
    {a : Arrangement} (hload : loadConstant p.type.zero? p.type locals = .ok out)
    (hrest : (arrange resolver (position + 1) kept out.2 rest).Gives (.ok a)) :
    (arrange resolver position kept locals ((p, .default .type) :: rest)).Gives
      (.ok { a with code := out.1 ++ a.code }) := by
  rw [arrange]
  refine (Task.gives_zero? resolver p.type).bind_ok ?_
  rw [hload]
  exact (Task.gives_ofExcept _).bind_ok (hrest.bind_ok (Task.gives_pure _))

theorem gives_arrange_type_error (resolver : ResolverId) (position kept : Nat) {e : BuildError}
    (hload : loadConstant p.type.zero? p.type locals = .error e)
    (rest : List (Parameter × Binding)) :
    (arrange resolver position kept locals ((p, .default .type) :: rest)).Gives (.error e) := by
  rw [arrange]
  refine (Task.gives_zero? resolver p.type).bind_ok ?_
  rw [hload]
  refine (Task.gives_ofExcept _).bind (g := fun _ => .error e) ?_
  intro out hout
  cases hout

variable {header : Header} {target : Procedure} {bindings : List Binding} {start : Nat}
  {before after : List Parameter}

/-- A zero value that cannot be written into code is refused. -/
theorem gives_bindAt_unwritable (hwindow : start + bindings.length ≤ target.signature.arity)
    (hroles : roles target bindings start = rolesAround before p (.default .type) after)
    (hkept : before.length + after.length ≤ 256) (h : p.type.isUnwritable = true) :
    (bindAt header target bindings start).Gives (.error (.unsupportedType p.type)) := by
  have hrefused := loadConstant_zero_of_isUnwritable h .empty
  obtain ⟨f, harrange⟩ := gives_arrange_append_kept 0 0 before (by omega)
    (gives_arrange_type_error header.resolver _ _ hrefused (after.map (·, .keep)))
  rw [bindAt_eq hwindow, hroles]
  refine harrange.bind (g := fun _ => .error (.unsupportedType p.type)) ?_
  intro a ha
  cases ha

/-- Any other zero value is passed to the target. -/
theorem gives_bindAt_zero (hwindow : start + bindings.length ≤ target.signature.arity)
    (hroles : roles target bindings start = rolesAround before p (.default .type) after)
    (hkept : before.length + after.length ≤ 256) (hvalue : p.type.isValueType = true)
    (hwritable : p.type.isUnwritable = false) :
    ∃ body, (bindAt header target bindings start).Gives
        (.ok (.generated header ⟨before ++ after, target.signature.result⟩ body)) ∧
      CallsAround target before after p.type.initial
        (.generated header ⟨before ++ after, target.signature.result⟩ body) := by
  obtain ⟨out, hload⟩ := exists_loadConstant_zero hvalue hwritable
  have hnil (position kept : Nat) : (arrange header.resolver position kept out.2 []).Gives
    (.ok ⟨[], out.2, []⟩) := Task.gives_pure _
  -- Arranging is put together from the back: the parameters after the fixed one, its zero value,
  -- and those before it.
  obtain ⟨f, hafter⟩ := gives_arrange_append_kept (0 + before.length + 1) (0 + before.length) after
    (by omega) (hnil _ _)
  rw [List.append_nil] at hafter
  obtain ⟨f', harrange⟩ := gives_arrange_append_kept 0 0 before (by omega)
    (gives_arrange_type hload hafter)
  obtain ⟨a, ha⟩ : ∃ a, (arrange header.resolver 0 0 .empty
      (rolesAround before p (.default .type) after)).Gives (.ok a) := ⟨_, harrange⟩
  obtain ⟨hparams, sources, hfetches, hsourced⟩ := arrange_sourced (ha .empty)
  rw [keptParams_around .type] at hparams
  obtain ⟨body, hfinish⟩ := hfetches.exists_finish target
  have htypes : target.signature.types = (before ++ p :: after).map Parameter.type := by
    rw [Signature.types, ← map_fst_roles hwindow, hroles]
    simp [rolesAround, Function.comp_def]
  refine ⟨body, ?_, ?_⟩
  · rw [bindAt_eq hwindow, hroles, ← hparams]
    exact ha.bind_ok (gives_assemble hfinish)
  · rw [← arrived_zero hvalue]
    exact hfetches.callsAround header hsourced .type htypes hkept hfinish

end Binding

/-! ### Adapting -/

section Adapting

/-- Adapting succeeds if each of its parts does. -/
theorem gives_adapt {header : Header} {supplied : Signature} {target : Procedure}
    {filling : Filling} {forwarded code : List (Instruction Callee)} {values : List Value}
    {locals : Locals} {body : Body Callee}
    (hcheck : checkSupplied supplied target.signature = .ok ())
    (hforward : forwardAll supplied.arity = .ok forwarded)
    (hvalues : filling.values supplied.arity (target.signature.params.drop supplied.arity)
      = .ok values)
    (hload : loadAll .empty ((target.signature.params.drop supplied.arity).zip values)
      = .ok (code, locals))
    (hfinish : Draft.finish ⟨adapterCode (forwarded ++ code) target, locals⟩ = .ok body) :
    (adapt header supplied target filling).Gives
      (.ok (.generated header ⟨supplied.params, target.signature.result⟩ body)) := by
  simp only [adapt, hcheck, hforward, hvalues]
  refine (Task.gives_ofExcept _).bind_ok ?_
  refine (Task.gives_ofExcept _).bind_ok ?_
  refine (Task.gives_ofExcept _).bind_ok ?_
  rw [hload]
  exact (Task.gives_ofExcept _).bind_ok (gives_assemble hfinish)

theorem checkForwarded_self (position : Nat) (params rest : List Parameter) :
    checkForwarded position params (params ++ rest) = .ok () := by
  induction params generalizing position with
  | nil => rfl
  | cons p params ih =>
    rw [List.cons_append, checkForwarded, if_pos (by simp [ValueType.isAssignableFrom])]
    exact ih (position + 1)

theorem exists_forwardAll {n : Nat} (h : n ≤ 256) :
    ∃ code : List (Instruction Callee), forwardAll n = .ok code := by
  cases hforward : (forwardAll n : Except BuildError (List (Instruction Callee))) with
  | ok code => exact ⟨code, rfl⟩
  | error e =>
    obtain ⟨hlong, -⟩ := forwardAll_error_iff.mp hforward
    omega

theorem sourced_append_kept {kept : Nat} {params : List Parameter}
    {roles : List (Parameter × Binding)} {sources : List Source}
    (hkept : kept + params.length ≤ 256) (hrest : Sourced (kept + params.length) roles sources) :
    Sourced kept (params.map (·, .keep) ++ roles)
      ((List.range' kept params.length).map (fun i => .argument (UInt8.ofNat i)) ++ sources) := by
  induction params generalizing kept with
  | nil => exact hrest
  | cons p params ih =>
    rw [List.length_cons] at hkept hrest
    rw [← Nat.add_assoc, Nat.add_right_comm] at hrest
    exact .keep (by omega) (ih (by omega) hrest)

/-- An absent value that is given for the last parameter becomes the zero value of its type, whatever
the type. -/
theorem gives_adapt_absent (header : Header) {target : Procedure} {before : List Parameter}
    {p : Parameter} (hparams : target.signature.params = before ++ [p])
    (hkept : before.length ≤ 256) (hvalue : p.type.isValueType = true) :
    ∃ body, (adapt header (target.signature.leading before.length) target
        (.positional [.null])).Gives
        (.ok (.generated header ⟨before, target.signature.result⟩ body)) ∧
      CallsAround target before [] p.type.initial
        (.generated header ⟨before, target.signature.result⟩ body) := by
  have hleading : target.signature.leading before.length
      = ⟨before, target.signature.result⟩ := by
    simp [Signature.leading, hparams]
  have hdrop : target.signature.params.drop before.length = [p] := by
    simp [hparams]
  have hcheck : checkSupplied ⟨before, target.signature.result⟩ target.signature = .ok () := by
    have harity : ¬ target.signature.arity
        < (Signature.mk before target.signature.result).arity := by
      simp [Signature.arity, hparams]
    rw [checkSupplied, if_neg (by simp [ValueType.isAssignableFrom]), if_neg harity, hparams]
    exact checkForwarded_self 0 before [p]
  obtain ⟨forwarded, hforward⟩ := exists_forwardAll hkept
  obtain ⟨⟨code, locals⟩, hload⟩ := exists_loadConstant_none (isSimple_of_isValueType hvalue)
  rw [← loadConstant_absent (v := .null) rfl] at hload
  have hloadAll : loadAll .empty [(p, .null)] = .ok (code, locals) := by
    rw [loadAll, hload]
    simp [loadAll, bind, Except.bind, pure, Except.pure]
  -- The parameter counts as one that takes a declared default.
  have hresolves : Binding.Resolves { p with default := some .null } (.default .parameter)
    (some .null) := .parameter rfl
  obtain ⟨-, hfront⟩ := fetches_forward .empty hforward
  have hfetches := hfront.append (loadAll_eq_ok hloadAll).1
  have hsourced : Sourced 0 (rolesAround before { p with default := some .null }
      (.default .parameter) []) _ :=
    sourced_append_kept (by omega) (.bound hresolves ⟨.empty, _, hload⟩ .nil)
  rw [← List.range_eq_range'] at hsourced
  obtain ⟨body, hfinish⟩ := hfetches.exists_finish target
  have hcalls := hfetches.callsAround header hsourced hresolves
    (by simp [Signature.types, hparams]) (by simpa using hkept) hfinish
  rw [List.append_nil, arrived_absent rfl] at hcalls
  refine ⟨body, ?_, hcalls⟩
  have hvalues : (Filling.positional [.null]).values before.length
      (target.signature.params.drop before.length) = .ok [.null] := by
    rw [hdrop]
    rfl
  have hloaded : loadAll .empty ((target.signature.params.drop before.length).zip [.null])
      = .ok (code, locals) := by
    rw [hdrop]
    exact hloadAll
  rw [hleading]
  exact gives_adapt hcheck hforward hvalues hloaded hfinish

end Adapting

/-! ### The main theorem -/

/-- **Defaults by type.** Of the parameters of a target, one has a value type and is set to the default
of its type, and the others, at most 256, are kept. If the type is neither the unit type nor a record
type, binding succeeds, and the target receives the zero value for that parameter. For the unit type
and for records binding is refused. Where the parameter is the last one, it can also be given an absent
value by adapting. This succeeds for all value types, and here too the target receives the zero
value. -/
theorem bindAt_type_default (header : Header) (target : Procedure) (bindings : List Binding)
    (start : Nat) (before : List Parameter) (p : Parameter) (after : List Parameter)
    (hwindow : start + bindings.length ≤ target.signature.arity)
    (hroles : roles target bindings start = rolesAround before p (.default .type) after)
    (hkept : before.length + after.length ≤ 256) (hvalue : p.type.isValueType = true) :
    (p.type.isUnwritable = false → ∃ g, (bindAt header target bindings start).Gives (.ok g) ∧
      g.name = header.name ∧ CallsAround target before after p.type.initial g) ∧
    (p.type.isUnwritable = true →
      (bindAt header target bindings start).Gives (.error (.unsupportedType p.type))) ∧
    (after = [] → ∃ g, (adapt header (target.signature.leading before.length) target
        (.positional [.null])).Gives (.ok g) ∧
      g.name = header.name ∧ CallsAround target before after p.type.initial g) := by
  refine ⟨?_, gives_bindAt_unwritable hwindow hroles hkept, ?_⟩
  · intro hwritable
    obtain ⟨body, hgives, hcalls⟩ := gives_bindAt_zero hwindow hroles hkept hvalue hwritable
    exact ⟨_, hgives, rfl, hcalls⟩
  · rintro rfl
    have hparams : target.signature.params = before ++ [p] := by
      rw [← map_fst_roles hwindow, hroles]
      simp [rolesAround, Function.comp_def]
    obtain ⟨body, hgives, hcalls⟩ := gives_adapt_absent header hparams hkept hvalue
    exact ⟨_, hgives, rfl, hcalls⟩

/-- The last parameter is a wrapper of the top type. Both procedures pass the empty wrapper for it. -/
theorem bindAt_type_default_wrapper :
    ∃ target g f, target = Procedure.host 1 "f" ⟨[.ofType .i32, .ofType (.nullable .object)],
        .nullable .object⟩ (fun args => .ok (args.getD 1 .unit)) ∧
      (bindAt ⟨2, "g", 0⟩ target [.default .type] 1).Gives (.ok g) ∧
      (adapt ⟨2, "g", 0⟩ (target.signature.leading 1) target (.positional [.null])).Gives (.ok f) ∧
      ∀ s, ((g.invoke [.i32 7]).runOn s).1 = .ok .empty ∧
        ((f.invoke [.i32 7]).runOn s).1 = .ok .empty := by
  obtain ⟨target, htarget⟩ : ∃ target, target = Procedure.host 1 "f" ⟨[.ofType .i32,
    .ofType (.nullable .object)], .nullable .object⟩ (fun args => .ok (args.getD 1 .unit)) :=
    ⟨_, rfl⟩
  have hwindow : 1 + [Binding.default .type].length ≤ target.signature.arity := by
    subst htarget
    decide
  have hroles : roles target [.default .type] 1
      = rolesAround [.ofType .i32] (.ofType (.nullable .object)) (.default .type) [] := by
    subst htarget
    rfl
  obtain ⟨hbound, -, hadapted⟩ := bindAt_type_default ⟨2, "g", 0⟩ target [.default .type] 1
    [.ofType .i32] (.ofType (.nullable .object)) [] hwindow hroles (by decide) rfl
  have hcall : ∀ g : Procedure, CallsAround target [.ofType .i32] []
      (ValueType.initial (.nullable .object)) g →
      ∀ s, ((g.invoke [.i32 7]).runOn s).1 = .ok .empty := by
    intro g hcalls s
    have hreceive : g.signature.receive g.name [.i32 7] = .ok [.i32 7] := by
      rw [hcalls.signature_eq]
      rfl
    rw [hcalls.passed _ _ s s hreceive]
    subst htarget
    rfl
  obtain ⟨g, hg, -, hg'⟩ := hbound rfl
  obtain ⟨f, hf, -, hf'⟩ := hadapted rfl
  exact ⟨target, g, f, htarget, hg, hf, fun s => ⟨hcall g hg' s, hcall f hf' s⟩⟩

/-- A record has a zero value, which adapting passes to the target, but it cannot be bound as the default
of its type. -/
theorem bindAt_type_default_record :
    ∃ point echo f, point = ValueType.struct "Point" [("x", .i32), ("label", .str)] ∧
      echo = Procedure.host 1 "echo" ⟨[.ofType point], point⟩ (fun args => .ok (args.getD 0 .unit)) ∧
      point.zero? = some (.struct "Point" [("x", .i32), ("label", .str)] [.i32 0, .null]) ∧
      ((bindAt ⟨2, "zero", 0⟩ echo [.default .type] 0).runOn .empty).1
        = .error (.unsupportedType point) ∧
      ((adapt ⟨2, "zero", 0⟩ ⟨[], point⟩ echo (.positional [.null])).runOn .empty).1 = .ok f ∧
      ((f.invoke []).runOn .empty).1
        = .ok (.struct "Point" [("x", .i32), ("label", .str)] [.i32 0, .null]) :=
  ⟨_, _, _, rfl, rfl, rfl, rfl, rfl, by cbv⟩

end CallAdapter
