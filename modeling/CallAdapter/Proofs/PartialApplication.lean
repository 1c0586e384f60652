import CallAdapter.Adapt.Binding
import CallAdapter.Proofs.Adapter

/-!
# Binding parameters is partial application

`roles` lists the parameters of a target with their bindings. The specification reads off it what a
procedure made by `bindAt` is: `keptParams` are its parameters, and `Completes` completes the
arguments that it has received to arguments of the target. The main theorem, `bindAt_exact`, says
that a call of it is a call of the target on the completed arguments.

On the way, `Sourced` says where the arguments come from in the code that `arrange` writes: the
kept parameters are numbered from zero, the others are constants. `Passes` says what then arrives at
the target; it differs from `Completes` at nullable wrappers of the top type only. `Binds` is what
`bindAt` promises about the procedures that it makes, whatever their code (`binds_of_bindAt`).
-/

namespace CallAdapter

open Machine Value

/-! ### The specification -/

/-- The bindings of `n` parameters, those of a window and `keep` before and after it. -/
def Binding.window (bindings : List Binding) (start n : Nat) : List Binding :=
  List.replicate start .keep ++ bindings ++ List.replicate (n - start - bindings.length) .keep

def roles (target : Procedure) (bindings : List Binding) (start : Nat) :
    List (Parameter × Binding) :=
  target.signature.params.zip (Binding.window bindings start target.signature.arity)

def keptParams : List (Parameter × Binding) → List Parameter
  | [] => []
  | (p, .keep) :: roles => p :: keptParams roles
  | _ :: roles => keptParams roles

/-- The value that a binding stands for at a parameter. The zero value of a reference type is
none. -/
inductive Binding.Resolves (p : Parameter) : Binding → Option Value → Prop
  | fixed {v w : Value} : v.convert p.type = .ok w → Resolves p (.fixed v) (some w)
  | parameter {v : Value} : p.default = some v → Resolves p (.default .parameter) (some v)
  | type : Resolves p (.default .type) p.type.zero?
  | parameterOrType : Resolves p (.default .parameterOrType) (p.default.or p.type.zero?)

/-- The arguments of the target for the arguments that were received: these stand, in order, where
parameters are kept, and the values of the bindings stand elsewhere. -/
inductive Completes : List (Parameter × Binding) → List Value → List Value → Prop
  | nil : Completes [] [] []
  | keep {p : Parameter} {roles : List (Parameter × Binding)} {v : Value}
      {received full : List Value} : Completes roles received full →
      Completes ((p, .keep) :: roles) (v :: received) (v :: full)
  | bound {p : Parameter} {b : Binding} {roles : List (Parameter × Binding)} {v : Option Value}
      {received full : List Value} : b.Resolves p v → Completes roles received full →
      Completes ((p, b) :: roles) received (p.type.received v :: full)

theorem Binding.Resolves.eq {p : Parameter} {b : Binding} {v v' : Option Value}
    (h : b.Resolves p v) (h' : b.Resolves p v') : v = v' := by
  cases h with
  | fixed hw =>
    cases h' with
    | fixed hw' =>
      rw [hw] at hw'
      exact congrArg some (Except.ok.inj hw')
  | parameter hv =>
    cases h' with
    | parameter hv' => rw [← hv, ← hv']
  | type | parameterOrType =>
    cases h'
    rfl

theorem Binding.Resolves.ne_keep {p : Parameter} {b : Binding} {v : Option Value}
    (h : b.Resolves p v) : b ≠ .keep := by
  cases h <;> simp

/-- The completed arguments are determined by those received. -/
theorem Completes.eq {roles : List (Parameter × Binding)} {received full full' : List Value}
    (h : Completes roles received full) (h' : Completes roles received full') : full = full' := by
  induction h generalizing full' with
  | nil =>
    cases h'
    rfl
  | keep _ ih =>
    cases h' with
    | keep h' => rw [ih h']
    | bound hresolves => cases hresolves
  | bound hresolves _ ih =>
    cases h' with
    | keep => cases hresolves
    | bound hresolves' h' => rw [hresolves.eq hresolves', ih h']

/-! ### The window -/

theorem Binding.getElem?_window {bindings : List Binding} {start n : Nat}
    (h : start + bindings.length ≤ n) {position : Nat} (hposition : position < n) :
    (window bindings start n)[position]? = some (atPosition bindings start position) := by
  unfold window atPosition
  rcases Nat.lt_or_ge position start with hbefore | hafter
  · rw [List.append_assoc, List.getElem?_append_left (by simpa using hbefore), if_pos hbefore,
      List.getElem?_replicate, if_pos hbefore]
  · rw [if_neg (by omega), List.append_assoc, List.getElem?_append_right (by simpa using hafter),
      List.length_replicate]
    rcases Nat.lt_or_ge (position - start) bindings.length with hin | hout
    · rw [List.getElem?_append_left hin, List.getD_eq_getElem?_getD,
        List.getElem?_eq_getElem hin]
      rfl
    · rw [List.getElem?_append_right hout, List.getElem?_replicate, if_pos (by omega),
        List.getD_eq_getElem?_getD, List.getElem?_eq_none hout]
      rfl

theorem mapIdx_atPosition {params : List Parameter} {bindings : List Binding} {start : Nat}
    (h : start + bindings.length ≤ params.length) :
    params.mapIdx (fun position p => (p, Binding.atPosition bindings start position))
      = params.zip (Binding.window bindings start params.length) := by
  apply List.ext_getElem?
  intro position
  rw [List.getElem?_mapIdx]
  rcases Nat.lt_or_ge position params.length with hlt | hge
  · have hp := List.getElem?_eq_getElem hlt
    rw [hp]
    exact (List.getElem?_zip_eq_some.mpr ⟨hp, Binding.getElem?_window h hlt⟩).symm
  · rw [List.getElem?_eq_none hge, List.getElem?_eq_none]
    · rfl
    · exact (List.length_zip ▸ min_le_left _ _).trans hge

/-! ### Where the arguments come from -/

/-- The sources of the arguments for parameters with bindings, after `kept` parameters have been
kept. -/
inductive Sourced : Nat → List (Parameter × Binding) → List Source → Prop
  | nil {kept : Nat} : Sourced kept [] []
  | keep {kept : Nat} {p : Parameter} {roles : List (Parameter × Binding)} {sources : List Source} :
      kept < 256 → Sourced (kept + 1) roles sources →
      Sourced kept ((p, .keep) :: roles) (.argument (UInt8.ofNat kept) :: sources)
  | bound {kept : Nat} {p : Parameter} {b : Binding} {v : Option Value}
      {roles : List (Parameter × Binding)} {sources : List Source} : b.Resolves p v →
      Loads v p.type → Sourced kept roles sources →
      Sourced kept ((p, b) :: roles) (.constant v p.type :: sources)

/-- The arguments that arrive at the target for the arguments that were received. -/
inductive Passes : List (Parameter × Binding) → List Value → List Value → Prop
  | nil : Passes [] [] []
  | keep {p : Parameter} {roles : List (Parameter × Binding)} {v : Value}
      {received full : List Value} : Passes roles received full →
      Passes ((p, .keep) :: roles) (v :: received) (v :: full)
  | bound {p : Parameter} {b : Binding} {roles : List (Parameter × Binding)} {v : Option Value}
      {received full : List Value} : b.Resolves p v → Loads v p.type →
      Passes roles received full → Passes ((p, b) :: roles) received (p.type.arrived v :: full)

theorem Passes.completes {roles : List (Parameter × Binding)} {received full : List Value}
    (h : Passes roles received full)
    (hobject : ∀ p b, (p, b) ∈ roles → b ≠ .keep → p.type ≠ .nullable .object) :
    Completes roles received full := by
  induction h with
  | nil => exact .nil
  | keep _ ih => exact .keep (ih fun p b hmem => hobject p b (List.mem_cons_of_mem _ hmem))
  | @bound p b roles v received full hresolves hloads _ ih =>
    rw [hloads.arrived_eq_received (hobject p b (by simp) hresolves.ne_keep)]
    exact .bound hresolves (ih fun p b hmem => hobject p b (List.mem_cons_of_mem _ hmem))

theorem Sourced.length_eq {kept : Nat} {roles : List (Parameter × Binding)} {sources : List Source}
    (h : Sourced kept roles sources) : sources.length = roles.length := by
  induction h with
  | nil => rfl
  | keep _ _ ih | bound _ _ _ ih => simp [ih]

theorem Sourced.length_eq_arity {target : Procedure} {kept : Nat}
    {roles : List (Parameter × Binding)} {sources : List Source} (h : Sourced kept roles sources)
    (htypes : roles.map (fun role => role.1.type) = target.signature.types) :
    sources.length = target.signature.arity := by
  rw [h.length_eq, ← List.length_map, htypes, Signature.types, List.length_map, Signature.arity]

theorem resolves_of_defaultBy {p : Parameter} {position : Nat} {resolver : ResolverId}
    {policy : DefaultPolicy} {s : Store} {v : Option Value}
    (h : ((p.defaultBy position resolver policy).runOn s).1 = .ok v) :
    (Binding.default policy).Resolves p v := by
  cases policy with
  | parameter =>
    have hgives : (p.defaultBy position resolver .parameter).Gives
        (some <$> p.declaredDefault position) := (Task.gives_ofExcept _).map _
    rw [hgives s] at h
    obtain ⟨w, hw, rfl⟩ := exists_of_map_eq_ok h
    exact .parameter (declaredDefault_eq_ok hw)
  | type =>
    have hgives : (p.defaultBy position resolver .type).Gives (.ok p.type.zero?) :=
      Task.gives_zero? resolver p.type
    rw [hgives s] at h
    cases h
    exact .type
  | parameterOrType =>
    have hgives : (p.defaultBy position resolver .parameterOrType).Gives
        (.ok (p.default.or p.type.zero?)) := by
      unfold Parameter.defaultBy
      cases p.default with
      | some w => exact Task.gives_pure _
      | none => exact Task.gives_zero? resolver p.type
    rw [hgives s] at h
    cases h
    exact .parameterOrType

/-- What `arrange` makes of a parameter that is set to a constant. -/
def arrangeConstant (resolver : ResolverId) (position kept : Nat) (locals : Locals) (p : Parameter)
    (v : Option Value) (rest : List (Parameter × Binding)) : Build Arrangement := do
  let (code, locals) ← Task.ofExcept (loadConstant v p.type locals)
  let a ← arrange resolver (position + 1) kept locals rest
  return { a with code := code ++ a.code }

/-- The code of an arrangement fetches the arguments from their sources. -/
theorem arrange_sourced {resolver : ResolverId} {position kept : Nat} {locals : Locals}
    {roles : List (Parameter × Binding)} {s : Store} {a : Arrangement}
    (h : ((arrange resolver position kept locals roles).runOn s).1 = .ok a) :
    a.params = keptParams roles ∧
      ∃ sources, Fetches locals sources a.code a.locals ∧ Sourced kept roles sources := by
  induction roles generalizing position kept locals s a with
  | nil =>
    cases h
    exact ⟨rfl, [], .nil, .nil⟩
  | cons role roles ih =>
    obtain ⟨p, b⟩ := role
    -- Fixed values and defaults are loaded in the same way.
    have hbound : ∀ (v : Option Value) (s : Store), b.Resolves p v →
        ((arrangeConstant resolver position kept locals p v roles).runOn s).1 = .ok a →
        a.params = keptParams ((p, b) :: roles) ∧ ∃ sources,
          Fetches locals sources a.code a.locals ∧ Sourced kept ((p, b) :: roles) sources := by
      intro v s hresolves h
      obtain ⟨⟨head, locals'⟩, hload, h⟩ := Task.ok_of_ofExcept_bind h
      obtain ⟨a', s', hrest, h⟩ := Task.ok_of_bind h
      cases h
      obtain ⟨hparams, sources, hfetches, hsourced⟩ := ih (congrArg Prod.fst hrest)
      obtain ⟨-, hloaded⟩ := loadedBy_of_loadConstant hload
      refine ⟨?_, .constant v p.type :: sources, .constant hloaded hfetches,
        .bound hresolves ⟨locals, _, hload⟩ hsourced⟩
      cases hresolves <;> exact hparams
    cases b with
    | keep =>
      obtain ⟨index, hindex, h⟩ := Task.ok_of_ofExcept_bind h
      obtain ⟨a', s', hrest, h⟩ := Task.ok_of_bind h
      cases h
      obtain ⟨hlt, rfl⟩ := shortIndex_eq_ok hindex
      obtain ⟨hparams, sources, hfetches, hsourced⟩ := ih (congrArg Prod.fst hrest)
      exact ⟨congrArg (p :: ·) hparams, _, .argument _ hfetches, .keep hlt hsourced⟩
    | fixed v =>
      obtain ⟨w, hw, h⟩ := Task.ok_of_ofExcept_bind h
      exact hbound (some w) s (.fixed hw) h
    | default policy =>
      obtain ⟨v, s', hv, h⟩ := Task.ok_of_bind h
      exact hbound v s' (resolves_of_defaultBy (congrArg Prod.fst hv)) h

/-- What the sources give arrives at the target. Those received so far are `before`. -/
theorem Sourced.passes {kept : Nat} {roles : List (Parameter × Binding)}
    {sources : List Source} (h : Sourced kept roles sources) (before : List Value)
    {received : List Value} (hbefore : before.length = kept)
    (hfits : List.Forall₂ (fun v p => v.Fits p.type) received (keptParams roles)) :
    ∃ ws full, sources.map (Source.pushed? (before ++ received)) = ws.map some ∧
      List.zipWith asSlot? ws (roles.map fun role => role.1.type) = full.map some ∧
      Passes roles received full := by
  induction h generalizing before received with
  | nil =>
    cases hfits
    exact ⟨[], [], rfl, rfl, .nil⟩
  | @keep kept p roles sources hlt _ ih =>
    -- The next received argument has the index `kept`; it then counts as one of those before.
    cases hfits with
    | @cons v _ received _ hv hfits =>
      have hindex : (before ++ v :: received)[(UInt8.ofNat kept).toNat]? = some v := by
        rw [UInt8.toNat_ofNat_of_lt' hlt, ← hbefore]
        simp
      obtain ⟨ws, full, hws, hfull, hpasses⟩ := ih (before ++ [v]) (by simp [hbefore]) hfits
      refine ⟨v :: ws, v :: full, ?_, ?_, .keep hpasses⟩
      · rw [List.append_assoc] at hws
        rw [List.map_cons, List.map_cons, ← hws]
        exact congrArg (· :: _) hindex
      · rw [List.map_cons, List.zipWith_cons_cons, hfull, hv.asSlot?_eq, List.map_cons]
  | @bound kept p b v roles sources hresolves hloads _ ih =>
    have hkept : keptParams ((p, b) :: roles) = keptParams roles := by
      cases hresolves <;> rfl
    rw [hkept] at hfits
    obtain ⟨ws, full, hws, hfull, hpasses⟩ := ih before hbefore hfits
    refine ⟨loadedValue v p.type :: ws, p.type.arrived v :: full, ?_, ?_,
      .bound hresolves hloads hpasses⟩
    · rw [List.map_cons, List.map_cons, ← hws]
      rfl
    · rw [List.map_cons, List.zipWith_cons_cons, hfull, hloads.asSlot?_loadedValue, List.map_cons]

/-! ### What binding makes -/

/-- A window that fits the target's parameters is arranged and then assembled. -/
theorem bindAt_eq {header : Header} {target : Procedure} {bindings : List Binding} {start : Nat}
    (h : start + bindings.length ≤ target.signature.arity) :
    bindAt header target bindings start = (do
      let a ← arrange header.resolver 0 0 .empty (roles target bindings start)
      assemble header a.params target a.code a.locals) := by
  have hfits : ¬ target.signature.params.length < start + bindings.length := Nat.not_lt.mpr h
  unfold bindAt
  simp only [hfits, if_false]
  rw [mapIdx_atPosition h]
  rfl

theorem bindAt_eq_throw {header : Header} {target : Procedure} {bindings : List Binding}
    {start : Nat} (h : target.signature.arity < start + bindings.length) :
    bindAt header target bindings start = throw (.arityMismatch target.signature.arity
      (min (start + bindings.length) countLimit)) := by
  have hlong : target.signature.params.length < start + bindings.length := h
  unfold bindAt
  simp only [hlong, if_true]
  rfl

theorem bindAt_eq_ok {header : Header} {target g : Procedure} {bindings : List Binding}
    {start : Nat} {s : Store} (h : ((bindAt header target bindings start).runOn s).1 = .ok g) :
    start + bindings.length ≤ target.signature.arity ∧
    ∃ a s', (arrange header.resolver 0 0 .empty (roles target bindings start)).runOn s
        = (.ok a, s') ∧
      ((assemble header a.params target a.code a.locals).runOn s').1 = .ok g := by
  rcases Nat.lt_or_ge target.signature.arity (start + bindings.length) with hlong | hfits
  · rw [bindAt_eq_throw hlong] at h
    cases h
  · rw [bindAt_eq hfits] at h
    exact ⟨hfits, Task.ok_of_bind h⟩

theorem map_fst_roles {target : Procedure} {bindings : List Binding} {start : Nat}
    (h : start + bindings.length ≤ target.signature.arity) :
    (roles target bindings start).map Prod.fst = target.signature.params := by
  apply List.map_fst_zip
  simp only [Binding.window, Signature.arity, List.length_append, List.length_replicate] at h ⊢
  omega

/-- The code of a procedure with bound parameters fetches the arguments of the target from their
sources. -/
theorem exists_fetches_of_bindAt {header : Header} {target g : Procedure} {bindings : List Binding}
    {start : Nat} {s : Store} (h : ((bindAt header target bindings start).runOn s).1 = .ok g) :
    ∃ sources code locals body, Fetches .empty sources code locals ∧
      Sourced 0 (roles target bindings start) sources ∧
      (roles target bindings start).map (fun role => role.1.type) = target.signature.types ∧
      Draft.finish ⟨adapterCode code target, locals⟩ = .ok body ∧
      g = .generated header ⟨keptParams (roles target bindings start), target.signature.result⟩
        body := by
  obtain ⟨hwindow, a, s', harrange, hassemble⟩ := bindAt_eq_ok h
  obtain ⟨hparams, sources, hfetches, hsourced⟩ := arrange_sourced (congrArg Prod.fst harrange)
  obtain ⟨body, hfinish, rfl⟩ := assemble_eq_ok hassemble
  refine ⟨sources, a.code, a.locals, body, hfetches, hsourced, ?_, hfinish, by rw [hparams]⟩
  rw [Signature.types, ← map_fst_roles hwindow, List.map_map]
  rfl

/-- The procedure has the parameters that are kept, and a call of it is a call of the target on what
arrives there. -/
structure Binds (name : String) (target : Procedure) (roles : List (Parameter × Binding))
    (g : Procedure) : Prop where
  name_eq : g.name = name
  signature_eq : g.signature = ⟨keptParams roles, target.signature.result⟩
  refused : ∀ args e, g.signature.receive name args = .error e → (g.invoke args).Gives (.error e)
  passed : ∀ args received, g.signature.receive name args = .ok received →
    ∃ full, Passes roles received full ∧ (g.invoke args).Gives
      (((target.invoke full).runOn .empty).1 >>= delivered name target.signature.result)

/-- Code that fetches the arguments of the target from their sources binds its parameters. -/
theorem Fetches.binds (header : Header) {target : Procedure} {roles : List (Parameter × Binding)}
    {sources : List Source} {code : List (Instruction Callee)} {locals : Locals} {body : Body Callee}
    (h : Fetches .empty sources code locals) (hsourced : Sourced 0 roles sources)
    (htypes : roles.map (fun role => role.1.type) = target.signature.types)
    (hcount : target.signature.arity + 1 < Token.rowLimit)
    (hfinish : Draft.finish ⟨adapterCode code target, locals⟩ = .ok body) :
    Binds header.name target roles
      (.generated header ⟨keptParams roles, target.signature.result⟩ body) where
  name_eq := rfl
  signature_eq := rfl
  refused _ _ hrefused s := congrArg Prod.fst (Procedure.runOn_invoke_refused hrefused s)
  passed := by
    intro args received hreceive
    have hsources := hsourced.length_eq_arity htypes
    obtain ⟨ws, full, hws, hfull, hpasses⟩ := hsourced.passes [] rfl (fits_of_receive hreceive)
    -- What is pushed is received by the slots of the target, one by one.
    have hslots : fitAll asSlot? (Callee.procedure target).text 0 target.signature.types ws
        = .ok full := by
      apply fitAll_of_zipWith
      rw [← hfull, htypes]
    have hinvoke := h.gives_invoke (hsources ▸ hcount) hsources hfinish
      (fun args => (target.settled_invoke args).gives_runOn .empty) hreceive hws
    rw [hslots] at hinvoke
    exact ⟨full, hpasses, hinvoke⟩

theorem binds_of_bindAt {header : Header} {target g : Procedure} {bindings : List Binding}
    {start : Nat} {s : Store} (hcount : target.signature.arity + 1 < Token.rowLimit)
    (h : ((bindAt header target bindings start).runOn s).1 = .ok g) :
    Binds header.name target (roles target bindings start) g := by
  obtain ⟨_, _, _, _, hfetches, hsourced, htypes, hfinish, rfl⟩ := exists_fetches_of_bindAt h
  exact hfetches.binds header hsourced htypes hcount hfinish

/-! ### The main theorem -/

/-- **Binding parameters is exact partial application.** The new procedure has the parameters that
are kept, and the target's result. A call of it fails if its arguments are not received; otherwise
its outcome is the target's for the completed arguments: an error stays as it is, and a result is
delivered in the slot of the result type. The stores on which the calls run do not matter. -/
theorem bindAt_exact (header : Header) (target : Procedure) (bindings : List Binding)
    (start : Nat) (s : Store) (g : Procedure) (harity : target.signature.arity ≤ 2 ^ 24 - 2)
    (hobject : ∀ p b, (p, b) ∈ roles target bindings start → b ≠ .keep →
      p.type ≠ .nullable .object)
    (h : ((bindAt header target bindings start).runOn s).1 = .ok g) :
    g.signature = ⟨keptParams (roles target bindings start), target.signature.result⟩ ∧
    ∀ args s₁ s₂,
      (∀ e, g.signature.receive header.name args = .error e →
        ((g.invoke args).runOn s₁).1 = .error e) ∧
      (∀ received, g.signature.receive header.name args = .ok received →
        ∃ full, Completes (roles target bindings start) received full ∧
          ((g.invoke args).runOn s₁).1 = (do
            let r ← ((target.invoke full).runOn s₂).1
            delivered header.name target.signature.result r)) := by
  have hcount : target.signature.arity + 1 < Token.rowLimit := by
    rw [Token.rowLimit]
    omega
  have hbinds := binds_of_bindAt hcount h
  refine ⟨hbinds.signature_eq, fun args s₁ s₂ => ⟨?_, ?_⟩⟩
  · intro e hrefused
    exact hbinds.refused args e hrefused s₁
  · intro received hreceive
    obtain ⟨full, hpasses, hinvoke⟩ := hbinds.passed args received hreceive
    refine ⟨full, hpasses.completes hobject, ?_⟩
    -- The target answers on any other store as it does on the empty one.
    rw [hinvoke s₁, (target.settled_invoke full).gives_runOn s₂ .empty]

/-- Two parameters in the middle are bound: a number to a wrapper of shorter numbers, and a text to
its zero value, which is none. -/
theorem bindAt_exact_middle :
    ∃ target g, target = Procedure.host 1 "f" ⟨[.ofType .i32, .ofType (.nullable .i16),
        .ofType .str, .ofType .bool], .nullable .i16⟩ (fun args => .ok (args.getD 1 .unit)) ∧
      ((bindAt ⟨2, "g", 0⟩ target [.fixed (.i32 300), .default .type] 1).runOn .empty).1 = .ok g ∧
      g.signature.types = [.i32, .bool] ∧
      Completes (roles target [.fixed (.i32 300), .default .type] 1) [.i32 7, .bool true]
        [.i32 7, .present (.i16 300), .null, .bool true] ∧
      ∀ s, ((g.invoke [.i32 7, .bool true]).runOn s).1 = .ok (.present (.i16 300)) := by
  obtain ⟨target, htarget⟩ : ∃ target, target = Procedure.host 1 "f" ⟨[.ofType .i32,
    .ofType (.nullable .i16), .ofType .str, .ofType .bool], .nullable .i16⟩
    (fun args => .ok (args.getD 1 .unit)) := ⟨_, rfl⟩
  obtain ⟨g, hg⟩ : ∃ g, ((bindAt ⟨2, "g", 0⟩ target [.fixed (.i32 300), .default .type] 1).runOn
    .empty).1 = .ok g := by
    subst htarget
    exact ⟨_, rfl⟩
  have harity : target.signature.arity ≤ 2 ^ 24 - 2 := by
    subst htarget
    decide
  have hobject : ∀ p b, (p, b) ∈ roles target [.fixed (.i32 300), .default .type] 1 → b ≠ .keep →
      p.type ≠ .nullable .object := by
    subst htarget
    intro p b hmem _
    fin_cases hmem <;> simp [Parameter.ofType]
  have hcomplete : Completes (roles target [.fixed (.i32 300), .default .type] 1)
      [.i32 7, .bool true] [.i32 7, .present (.i16 300), .null, .bool true] := by
    subst htarget
    have hfixed : Value.convert (.i32 300) (.nullable .i16) = .ok (.present (.i16 300)) := rfl
    show Completes [(.ofType .i32, .keep), (.ofType (.nullable .i16), .fixed (.i32 300)),
      (.ofType .str, .default .type), (.ofType .bool, .keep)] _
      [.i32 7, ValueType.received (.nullable .i16) (some (.present (.i16 300))),
        ValueType.received .str (ValueType.zero? .str), .bool true]
    exact .keep (.bound (.fixed hfixed) (.bound .type (.keep .nil)))
  obtain ⟨hsignature, hinvoke⟩ := bindAt_exact _ target _ 1 .empty g harity hobject hg
  have htypes : g.signature.types = [.i32, .bool] := by
    rw [hsignature]
    subst htarget
    rfl
  refine ⟨target, g, htarget, hg, htypes, hcomplete, fun s => ?_⟩
  obtain ⟨full, hfull, hcall⟩ := (hinvoke [.i32 7, .bool true] s s).2 [.i32 7, .bool true] (by
    rw [hsignature]
    subst htarget
    rfl)
  rw [hcall, hfull.eq hcomplete]
  subst htarget
  rfl

end CallAdapter
