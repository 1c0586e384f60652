import CallAdapter.Proofs.Composition
import CallAdapter.Proofs.Faults

/-!
# When binding parameters fails

`RoleFault` lists what can be wrong with a parameter and its binding, given how many parameters
before it were kept and how many constants before it had no value. `bindFault` counts these along
the parameters of a target. The main theorem, `bindAt_first_fault`, says that a window beyond the
parameters is reported first, then the first parameter at fault, and that binding succeeds otherwise.

The proof follows `arrange` through the parameters. Those it has been through are `before`; the two
counts are kept below the limits by the faults that were not there.
-/

namespace CallAdapter

/-! ### The specification -/

/-- The constant that a binding stands for at a parameter, if there is one. -/
def Binding.constant? (p : Parameter) : Binding → Option (Option Value)
  | .keep => none
  | .fixed v => (v.convert p.type).toOption.map some
  | .default .parameter => p.default.map some
  | .default .type => some p.type.zero?
  | .default .parameterOrType => some (p.default.or p.type.zero?)

def boundConstants (roles : List (Parameter × Binding)) : List (ValueType × Option Value) :=
  roles.filterMap fun role => (role.2.constant? role.1).map (role.1.type, ·)

/-- Why a binding stands for no constant at the parameter with the given position. -/
inductive Binding.Unresolved (position : Nat) (p : Parameter) : Binding → BuildError → Prop
  | inconvertible {v : Value} {e : BuildError} : v.convert p.type = .error e →
      Unresolved position p (.fixed v) e
  | noDefault : p.default = none →
      Unresolved position p (.default .parameter) (.missingDefault (p.label position))

/-- What is wrong with a parameter and its binding, when `kept` parameters before it were kept and
`absent` constants before it had no value. -/
inductive RoleFault (position kept absent : Nat) (p : Parameter) : Binding → BuildError → Prop
  | kept : 256 ≤ kept → RoleFault position kept absent p .keep (.limitExceeded .argument 256)
  | unresolved {b : Binding} {e : BuildError} : b.Unresolved position p e →
      RoleFault position kept absent p b e
  | constant {b : Binding} {v : Option Value} {e : BuildError} : b.Resolves p v →
      ConstantFault absent p.type v e → RoleFault position kept absent p b e

/-- What is wrong with the parameter at an index. -/
def bindFault (roles : List (Parameter × Binding)) (i : Nat) (e : BuildError) : Prop :=
  ∃ p b, roles[i]? = some (p, b) ∧
    RoleFault i (keptParams (roles.take i)).length
      (absentTypes (boundConstants (roles.take i))).length p b e

/-! ### Resolving a binding -/

section Roles

variable {position kept absent : Nat} {p : Parameter} {b : Binding} {v : Option Value}
  {e e' : BuildError}

theorem Binding.resolves_iff : b.Resolves p v ↔ b.constant? p = some v := by
  constructor
  · intro h
    cases h with
    | fixed hw =>
      rw [constant?, hw]
      rfl
    | parameter hv =>
      rw [constant?, hv]
      rfl
    | type | parameterOrType => rfl
  · intro h
    cases b with
    | keep => cases h
    | fixed w =>
      cases hw : w.convert p.type with
      | error e =>
        rw [constant?, hw] at h
        cases h
      | ok w' =>
        rw [constant?, hw] at h
        cases h
        exact .fixed hw
    | default policy =>
      cases policy with
      | parameter =>
        obtain ⟨w, hw, rfl⟩ := Option.map_eq_some_iff.mp h
        exact .parameter hw
      | type =>
        cases h
        exact .type
      | parameterOrType =>
        cases h
        exact .parameterOrType

theorem Binding.Unresolved.eq (h : b.Unresolved position p e) (h' : b.Unresolved position p e') :
    e' = e := by
  cases h with
  | inconvertible he =>
    cases h' with
    | inconvertible he' =>
      rw [he] at he'
      exact (Except.error.inj he').symm
  | noDefault =>
    cases h'
    rfl

theorem Binding.Unresolved.not_resolves (h : b.Unresolved position p e) : ¬ b.Resolves p v := by
  intro hresolves
  cases h with
  | inconvertible he =>
    cases hresolves with
    | fixed hw =>
      rw [he] at hw
      cases hw
  | noDefault hnone =>
    cases hresolves with
    | parameter hv =>
      rw [hnone] at hv
      cases hv

theorem roleFault_keep_iff :
    RoleFault position kept absent p .keep e ↔ 256 ≤ kept ∧ e = .limitExceeded .argument 256 := by
  constructor
  · intro h
    cases h with
    | kept hfull => exact ⟨hfull, rfl⟩
    | unresolved hunresolved => cases hunresolved
    | constant hresolves => cases hresolves
  · rintro ⟨hfull, rfl⟩
    exact .kept hfull

theorem Binding.Unresolved.roleFault_iff (h : b.Unresolved position p e) :
    RoleFault position kept absent p b e' ↔ e' = e := by
  constructor
  · intro hfault
    cases hfault with
    | kept => cases h
    | unresolved h' => exact h.eq h'
    | constant hresolves => exact absurd hresolves h.not_resolves
  · rintro rfl
    exact .unresolved h

theorem Binding.Resolves.roleFault_iff (h : b.Resolves p v) :
    RoleFault position kept absent p b e ↔ ConstantFault absent p.type v e := by
  constructor
  · intro hfault
    cases hfault with
    | kept => cases h
    | unresolved hunresolved => exact absurd h hunresolved.not_resolves
    | constant h' hconstant => exact h'.eq h ▸ hconstant
  · exact .constant h

theorem unresolved_of_defaultBy {resolver : ResolverId} {policy : DefaultPolicy} {s : Store}
    (h : ((p.defaultBy position resolver policy).runOn s).1 = .error e) :
    (Binding.default policy).Unresolved position p e := by
  cases policy with
  | parameter =>
    have hgives : (p.defaultBy position resolver .parameter).Gives
        (some <$> p.declaredDefault position) := (Task.gives_ofExcept _).map _
    obtain ⟨hnone, rfl⟩ := declaredDefault_error_iff.mp
      (map_eq_error_iff.mp ((hgives s).symm.trans h))
    exact .noDefault hnone
  | type => cases h
  | parameterOrType =>
    unfold Parameter.defaultBy at h
    cases hdefault : p.default <;> simp only [hdefault] at h <;> cases h

/-- A binding that is no `keep` has an error of its own or is loaded as a constant. -/
theorem arrange_bound_cases (hb : b ≠ .keep) (resolver : ResolverId) (locals : Locals)
    (rest : List (Parameter × Binding)) (s : Store) :
    (∃ e, b.Unresolved position p e ∧
      ((arrange resolver position kept locals ((p, b) :: rest)).runOn s).1 = .error e) ∨
    ∃ v s', b.Resolves p v ∧
      ((arrange resolver position kept locals ((p, b) :: rest)).runOn s).1
        = ((arrangeConstant resolver position kept locals p v rest).runOn s').1 := by
  -- A default may be asked for at the resolver, which changes the store that the rest starts from.
  cases b with
  | keep => exact absurd rfl hb
  | fixed w =>
    cases hw : w.convert p.type with
    | error e =>
      refine .inl ⟨e, .inconvertible hw, ?_⟩
      rw [arrange, hw]
      rfl
    | ok w' =>
      refine .inr ⟨some w', s, .fixed hw, ?_⟩
      rw [arrange, hw]
      rfl
  | default policy =>
    rw [arrange, Task.runOn_bind]
    rcases hdefault : (p.defaultBy position resolver policy).runOn s with ⟨e | v, s'⟩
    · exact .inl ⟨e, unresolved_of_defaultBy (congrArg Prod.fst hdefault), rfl⟩
    · exact .inr ⟨v, s', resolves_of_defaultBy (congrArg Prod.fst hdefault), rfl⟩

end Roles

/-! ### Going through the parameters -/

theorem bindFault_append {before : List (Parameter × Binding)} {p : Parameter} {b : Binding}
    {rest : List (Parameter × Binding)} {e : BuildError} :
    bindFault (before ++ (p, b) :: rest) (before.length + 0) e ↔
      RoleFault before.length (keptParams before).length
        (absentTypes (boundConstants before)).length p b e := by
  simp [bindFault]

theorem keptParams_append (before rest : List (Parameter × Binding)) :
    keptParams (before ++ rest) = keptParams before ++ keptParams rest := by
  induction before with
  | nil => rfl
  | cons role before ih =>
    obtain ⟨p, b⟩ := role
    cases b with
    | keep => exact congrArg (p :: ·) ih
    | fixed | default => exact ih

theorem boundConstants_append (before rest : List (Parameter × Binding)) :
    boundConstants (before ++ rest) = boundConstants before ++ boundConstants rest :=
  List.filterMap_append

/-- Going through the parameters behind `before` reports the first one at fault. -/
theorem reports_arrange (resolver : ResolverId) (before rest : List (Parameter × Binding))
    (locals : Locals) (hkept : (keptParams before).length ≤ 256)
    (htypes : locals.types = absentTypes (boundConstants before)) (hsize : locals.size ≤ 256)
    (s : Store) :
    Reports (fun i => bindFault (before ++ rest) (before.length + i))
      ((arrange resolver before.length (keptParams before).length locals rest).runOn s).1 := by
  induction rest generalizing before locals s with
  | nil =>
    refine Reports.ok ?_ _
    rintro i e ⟨p, b, hrole, -⟩
    simp at hrole
  | cons role rest ih =>
    obtain ⟨p, b⟩ := role
    have hlength : (absentTypes (boundConstants before)).length = locals.size := by
      rw [← htypes, Locals.size]
    have hbehind := faults_behind bindFault before (p, b) rest
    by_cases hb : b = .keep
    · -- The count of kept parameters is the index of this one, so it stays within the limit.
      subst hb
      have hparams : keptParams (before ++ [(p, .keep)]) = keptParams before ++ [p] :=
        keptParams_append before _
      have hconstants : boundConstants (before ++ [(p, .keep)]) = boundConstants before := by
        rw [boundConstants_append]
        exact List.append_nil _
      rw [arrange, Task.fst_runOn_ofExcept_bind]
      refine Reports.bind ?_ ?_
      · intro e
        rw [shortIndex_error_iff hkept, bindFault_append, roleFault_keep_iff]
      · intro index hindex
        obtain ⟨hlt, -⟩ := shortIndex_eq_ok hindex
        have hrest := ih (before ++ [(p, .keep)]) locals (by simp [hparams]; omega)
          (by rw [hconstants, htypes]) hsize s
        simp only [hparams, List.length_append, List.length_singleton] at hrest
        rw [hbehind, bind_pure_comp, Task.runOn_map]
        exact hrest.map _
    · -- What is wrong is either the binding, before anything is loaded, or the constant.
      rcases arrange_bound_cases hb resolver locals rest s with ⟨e, he, hrun⟩ | ⟨v, s', hv, hrun⟩
      · rw [hrun]
        exact Reports.error fun e' => bindFault_append.trans he.roleFault_iff
      · rw [hrun, arrangeConstant, Task.fst_runOn_ofExcept_bind]
        refine Reports.bind ?_ ?_
        · intro e
          rw [loadConstant_error_iff hsize, bindFault_append, hv.roleFault_iff, hlength]
        · rintro ⟨code, locals'⟩ hload
          obtain ⟨-, hloaded⟩ := loadedBy_of_loadConstant hload
          have hparams : keptParams (before ++ [(p, b)]) = keptParams before := by
            rw [keptParams_append, keptParams_of_ne_keep hb]
            exact List.append_nil _
          have hconstants : boundConstants [(p, b)] = [(p.type, v)] := by
            simp [boundConstants, Binding.resolves_iff.mp hv]
          have hrest := ih (before ++ [(p, b)]) locals' (by rwa [hparams])
            (by rw [hloaded.types_eq, htypes, boundConstants_append, hconstants, absentTypes_append])
            (hloaded.size_le_limit hsize) s'
          simp only [hparams, List.length_append, List.length_singleton] at hrest
          rw [hbehind]
          simp only [bind_pure_comp, Task.runOn_map]
          exact hrest.map _

/-! ### The main theorem -/

section Outcome

variable {target g : Procedure} {bindings : List Binding} {start : Nat} {s : Store}

theorem Sourced.constants_eq {kept : Nat} {roles : List (Parameter × Binding)}
    {sources : List Source} (h : Sourced kept roles sources) :
    sources.filterMap Source.constant? = boundConstants roles := by
  induction h with
  | nil => rfl
  | keep _ _ ih => exact ih
  | @bound _ p b v roles sources hresolves _ _ ih =>
    have hhead : boundConstants ((p, b) :: roles) = (p.type, v) :: boundConstants roles :=
      List.filterMap_cons_some (by rw [Binding.resolves_iff.mp hresolves]; rfl)
    rw [hhead, ← ih]
    rfl

/-- If the window fits, binding reports the first parameter at fault. -/
theorem reports_bindAt (header : Header) (h : start + bindings.length ≤ target.signature.arity)
    (s : Store) :
    Reports (bindFault (roles target bindings start))
      ((bindAt header target bindings start).runOn s).1 := by
  have harrange := reports_arrange header.resolver [] (roles target bindings start)
    .empty (Nat.zero_le _) rfl (Nat.zero_le _) s
  simp only [List.nil_append, List.length_nil, Nat.zero_add] at harrange
  rw [bindAt_eq h, Task.fst_runOn_bind]
  refine harrange.bind_ok fun a ha => ?_
  obtain ⟨-, sources, hfetches, -⟩ := arrange_sourced ha
  obtain ⟨body, hgives, -⟩ := hfetches.gives_assemble header a.params target
  exact ⟨_, hgives _⟩

theorem bindAt_eq_generated {header : Header}
    (h : ((bindAt header target bindings start).runOn s).1 = .ok g) :
    ∃ body, g = .generated header ⟨keptParams (roles target bindings start),
        target.signature.result⟩ body ∧
      body.locals = absentTypes (boundConstants (roles target bindings start)) := by
  obtain ⟨-, a, s', harrange, hassemble⟩ := bindAt_eq_ok h
  obtain ⟨hparams, sources, hfetches, hsourced⟩ := arrange_sourced (congrArg Prod.fst harrange)
  obtain ⟨body, hgives, hlocals⟩ := hfetches.gives_assemble header a.params target
  rw [hgives s', hparams] at hassemble
  exact ⟨body, (Except.ok.inj hassemble).symm, by rw [hlocals, hsourced.constants_eq]⟩

end Outcome

/-- **Binding fails for the first fault only.** A window that goes beyond the target's parameters is
reported, whatever the bindings are. Otherwise the error is that of the first parameter at fault. If
there is none, the new procedure has the parameters that are kept, and a local slot for each constant
without a value. -/
theorem bindAt_first_fault (header : Header) (target : Procedure) (bindings : List Binding)
    (start : Nat) (s : Store) :
    (∀ e, ((bindAt header target bindings start).runOn s).1 = .error e ↔
      (target.signature.arity < start + bindings.length ∧
        e = .arityMismatch target.signature.arity (min (start + bindings.length) (2 ^ 64 - 1))) ∨
      (start + bindings.length ≤ target.signature.arity ∧
        ∃ i, IsFirst (bindFault (roles target bindings start)) i e)) ∧
    ((∃ body, ((bindAt header target bindings start).runOn s).1 = .ok (.generated header
          ⟨keptParams (roles target bindings start), target.signature.result⟩ body) ∧
        body.locals = absentTypes (boundConstants (roles target bindings start))) ↔
      start + bindings.length ≤ target.signature.arity ∧
        ∀ i e, ¬ bindFault (roles target bindings start) i e) := by
  refine ⟨fun e => ?_, ?_, ?_⟩
  · rcases Nat.lt_or_ge target.signature.arity (start + bindings.length) with hlong | hfits
    · rw [bindAt_eq_throw hlong]
      constructor
      · intro herror
        cases herror
        exact .inl ⟨hlong, rfl⟩
      · rintro (⟨-, rfl⟩ | ⟨hfits, -⟩)
        · rfl
        · omega
    · rw [reports_bindAt header hfits s e]
      constructor
      · intro hfirst
        exact .inr ⟨hfits, hfirst⟩
      · rintro (⟨hlong, -⟩ | ⟨-, hfirst⟩)
        · omega
        · exact hfirst
  · rintro ⟨body, hrun, -⟩
    obtain ⟨hfits, -⟩ := bindAt_eq_ok hrun
    have hreports := reports_bindAt header hfits s
    rw [hrun] at hreports
    exact ⟨hfits, hreports.no_fault⟩
  · rintro ⟨hfits, hnone⟩
    obtain ⟨g, hg⟩ := (reports_bindAt header hfits s).exists_ok hnone
    obtain ⟨body, rfl, hlocals⟩ := bindAt_eq_generated hg
    exact ⟨body, hg, hlocals⟩

example : ((bindAt ⟨2, "g", 0⟩ (.host 1 "f" ⟨[.ofType .i32, .ofType (.reference "C"), .ofType .str],
      .unit⟩ fun _ => .ok .unit) [.default .type, .default .parameter] 1).runOn .empty).1
    = .error (.unsupportedType (.reference "C")) := rfl

end CallAdapter
