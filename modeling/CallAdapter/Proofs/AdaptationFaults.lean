import CallAdapter.Proofs.NamedValues

/-!
# When adapting fails

Adapting goes through seven stages: the result, the number of parameters and the parameters of the
supplied signature are checked, its arguments are numbered, and then the filling is checked, filled
up with defaults and written into the code. `adaptFault` says what can be wrong at each stage. The
main theorem, `adapt_first_fault`, says that the first stage at fault is reported, and that adapting
succeeds otherwise.

Three of the stages go through parameters in turn and report the first one at fault: `forwardFault`,
`missingFault` and `loadFault`.
-/

namespace CallAdapter

/-! ### The specification -/

/-- The parameters that a supplied signature leaves open. -/
abbrev openParams (supplied target : Signature) : List Parameter :=
  target.params.drop supplied.arity

/-- The supplied parameter with the given index, the first of which is at a position, cannot be
passed for the target's. -/
def forwardFault (position : Nat) (supplied target : List Parameter) (i : Nat) (e : BuildError) :
    Prop :=
  ∃ ours theirs, supplied[i]? = some ours ∧ target[i]? = some theirs ∧
    theirs.type.isAssignableFrom ours.type = false ∧
    e = .signatureMismatch (.parameter (position + i)) theirs.type ours.type

/-- A filling has more to give than the open parameters take. -/
inductive Filling.Surplus (trailing : List Parameter) : Filling → BuildError → Prop
  | tooMany {values : List Value} : trailing.length < values.length →
      Surplus trailing (.positional values) (.arityMismatch trailing.length values.length)
  | unknown {entries : List (String × Value)} {names : List String} : names ≠ [] →
      ListsUnknown entries trailing names → Surplus trailing (.named entries) (.unknownName names)

/-- The constants that are written for open parameters with their values. -/
def filledConstants (pairs : List (Parameter × Value)) : List (ValueType × Option Value) :=
  pairs.map fun pair => (pair.1.type, some pair.2)

/-- What is wrong with the value of the open parameter with the given index. -/
def loadFault (pairs : List (Parameter × Value)) (i : Nat) (e : BuildError) : Prop :=
  ∃ p v, pairs[i]? = some (p, v) ∧
    ConstantFault (absentTypes (filledConstants (pairs.take i))).length p.type (some v) e

/-- What is wrong at each stage of adapting. -/
def adaptFault (supplied target : Signature) (filling : Filling) : Nat → BuildError → Prop
  -- The target's result type does not take the supplied one.
  | 0, e => target.result.isAssignableFrom supplied.result = false ∧
      e = .signatureMismatch .result target.result supplied.result
  -- More parameters are supplied than there are.
  | 1, e => target.arity < supplied.arity ∧ e = .arityMismatch target.arity supplied.arity
  -- A supplied parameter cannot be passed for the target's.
  | 2, e => ∃ i, IsFirst (forwardFault 0 supplied.params target.params) i e
  -- The index of an argument does not fit a byte.
  | 3, e => 256 < supplied.arity ∧ e = .limitExceeded .argument 256
  -- The filling gives more than there are open parameters for.
  | 4, e => filling.Surplus (openParams supplied target) e
  -- An open parameter has neither a value nor a default.
  | 5, e => ∃ i, IsFirst (missingFault supplied.arity
      (filling.given? (openParams supplied target)) (openParams supplied target)) i e
  -- A value cannot be written into the code.
  | 6, e => ∃ values, FilledBy (filling.given? (openParams supplied target))
      (openParams supplied target) values ∧
      ∃ i, IsFirst (loadFault ((openParams supplied target).zip values)) i e
  | _, _ => False

/-! ### The supplied signature -/

theorem reports_checkForwarded (position : Nat) (supplied target : List Parameter) :
    Reports (forwardFault position supplied target) (checkForwarded position supplied target) := by
  induction supplied generalizing position target with
  | nil =>
    refine Reports.ok ?_ _
    rintro i e ⟨ours, theirs, hours, -⟩
    simp at hours
  | cons ours supplied ih =>
    cases target with
    | nil =>
      refine Reports.ok ?_ _
      rintro i e ⟨_, theirs, -, htheirs, -⟩
      simp at htheirs
    | cons theirs target =>
      -- Counting from the next position, the faults of the tail are the faults behind the head.
      have htail : (fun i => forwardFault position (ours :: supplied) (theirs :: target) (i + 1))
          = forwardFault (position + 1) supplied target := by
        funext i e
        simp [forwardFault, Nat.add_right_comm, Nat.add_assoc]
      have hcheck : checkForwarded position (ours :: supplied) (theirs :: target)
          = refuseIf (theirs.type.isAssignableFrom ours.type = false)
              (.signatureMismatch (.parameter position) theirs.type ours.type) >>= fun _ =>
            checkForwarded (position + 1) supplied target := by
        rw [refuseIf_bind, checkForwarded]
        cases theirs.type.isAssignableFrom ours.type <;> rfl
      rw [hcheck]
      refine Reports.bind ?_ ?_
      · intro e
        rw [refuseIf_error_iff]
        simp [forwardFault]
      · intro _ _
        rw [htail]
        exact ih (position + 1) target

theorem checkSupplied_eq (supplied target : Signature) :
    checkSupplied supplied target = (do
      refuseIf (target.result.isAssignableFrom supplied.result = false)
        (.signatureMismatch .result target.result supplied.result)
      refuseIf (target.arity < supplied.arity) (.arityMismatch target.arity supplied.arity)
      checkForwarded 0 supplied.params target.params) := by
  rw [refuseIf_bind, refuseIf_bind, checkSupplied]
  cases target.result.isAssignableFrom supplied.result <;> rfl

/-! ### The filling -/

theorem exists_surplus_check (filling : Filling) (position : Nat) (trailing : List Parameter) :
    ∃ check : Except BuildError Unit, (∀ e, check = .error e ↔ filling.Surplus trailing e) ∧
      filling.values position trailing
        = check >>= fun _ => fillGiven position (filling.given? trailing) trailing := by
  cases filling with
  | positional values =>
    refine ⟨refuseIf (trailing.length < values.length)
      (.arityMismatch trailing.length values.length), fun e => ?_, ?_⟩
    · rw [refuseIf_error_iff]
      constructor
      · rintro ⟨hlong, rfl⟩
        exact .tooMany hlong
      · intro hsurplus
        cases hsurplus with
        | tooMany hlong => exact ⟨hlong, rfl⟩
    · rw [refuseIf_bind, values_positional]
  | named entries =>
    have hlists := listsUnknown_unknownNames entries trailing
    refine ⟨refuseIf (unknownNames entries trailing ≠ [])
      (.unknownName (unknownNames entries trailing)), fun e => ?_, ?_⟩
    · rw [refuseIf_error_iff]
      constructor
      · rintro ⟨hunknown, rfl⟩
        exact .unknown hunknown hlists
      · intro hsurplus
        cases hsurplus with
        | unknown hnames hlists' =>
          -- The list of unknown names is determined by its order and its members.
          obtain rfl := hlists'.eq hlists
          exact ⟨hnames, rfl⟩
    · rw [refuseIf_bind, values_named, ite_not]

theorem reports_loadAll (before rest : List (Parameter × Value)) (locals : Locals)
    (htypes : locals.types = absentTypes (filledConstants before)) (hsize : locals.size ≤ 256) :
    Reports (fun i => loadFault (before ++ rest) (before.length + i)) (loadAll locals rest) := by
  induction rest generalizing before locals with
  | nil =>
    refine Reports.ok ?_ _
    rintro i e ⟨p, v, hpair, -⟩
    simp at hpair
  | cons pair rest ih =>
    obtain ⟨p, v⟩ := pair
    -- The slots in use are those of the absent constants before, which is what the fault counts.
    have hlength : (absentTypes (filledConstants before)).length = locals.size := by
      rw [← htypes, Locals.size]
    rw [loadAll]
    refine Reports.bind ?_ ?_
    · intro e
      rw [loadConstant_error_iff hsize]
      simp [loadFault, hlength]
    · rintro ⟨code, locals'⟩ hload
      obtain ⟨-, hloaded⟩ := loadedBy_of_loadConstant hload
      have hrest := ih (before ++ [(p, v)]) locals'
        (by rw [hloaded.types_eq, htypes, ← absentTypes_append, filledConstants, filledConstants,
          List.map_append]; rfl)
        (hloaded.size_le_limit hsize)
      rw [List.length_append, List.length_singleton] at hrest
      rw [faults_behind loadFault]
      exact hrest.bind_ok fun _ _ => ⟨_, rfl⟩

/-! ### The main theorem -/

section Outcome

variable {header : Header} {supplied : Signature} {target g : Procedure} {filling : Filling}
  {s : Store}

theorem fetches_of_adapt {forwarded code : List (Instruction Callee)} {values : List Value}
    {locals : Locals} (hforward : forwardAll supplied.arity = .ok forwarded)
    (hload : loadAll .empty ((openParams supplied target.signature).zip values)
      = .ok (code, locals)) :
    Fetches .empty (forwardedSources supplied.arity (openParams supplied target.signature) values)
      (forwarded ++ code) locals :=
  (fetches_forward .empty hforward).2.append (loadAll_eq_ok hload).1

theorem constants_forwardedSources (n : Nat) (trailing : List Parameter) (values : List Value) :
    (forwardedSources n trailing values).filterMap Source.constant?
      = filledConstants (trailing.zip values) := by
  simp [forwardedSources, filledConstants, Source.constant?, List.filterMap_map, Function.comp_def]

/-- Adapting reports the first stage at fault. -/
theorem reports_adapt (header : Header) (supplied : Signature) (target : Procedure)
    (filling : Filling) (s : Store) :
    Reports (adaptFault supplied target.signature filling)
      ((adapt header supplied target filling).runOn s).1 := by
  obtain ⟨check, hcheck, hvalues⟩ := exists_surplus_check filling supplied.arity
    (openParams supplied target.signature)
  -- One step for each stage, in order; each reports what its stage says.
  simp only [adapt, Task.fst_runOn_ofExcept_bind, checkSupplied_eq, hvalues, bind_assoc]
  refine Reports.bind (fun e => refuseIf_error_iff) fun _ _ => ?_
  refine Reports.bind (fun e => refuseIf_error_iff) fun _ _ => ?_
  refine Reports.bind (reports_checkForwarded 0 _ _) fun _ _ => ?_
  refine Reports.bind (fun e => forwardAll_error_iff) fun forwarded hforward => ?_
  refine Reports.bind hcheck fun _ _ => ?_
  refine Reports.bind (reports_fillGiven _ _ _) fun values hfill => ?_
  have hfilled := filledBy_of_fillGiven hfill
  refine Reports.bind (fun e => ?_) ?_
  · have hreports := reports_loadAll [] ((openParams supplied target.signature).zip values)
      .empty rfl (Nat.zero_le _) e
    simp only [List.nil_append, List.length_nil, Nat.zero_add] at hreports
    rw [hreports]
    constructor
    · intro hfirst
      exact ⟨values, hfilled, hfirst⟩
    · rintro ⟨values', hfilled', hfirst⟩
      rwa [hfilled.eq hfilled']
  · rintro ⟨code, locals⟩ hload
    obtain ⟨body, hgives, -⟩ := (fetches_of_adapt hforward hload).gives_assemble header
      supplied.params target
    show Reports _ ((assemble header supplied.params target (forwarded ++ code) locals).runOn s).1
    rw [hgives s]
    exact Reports.ok (fun i e hfault => hfault) _

theorem adapt_eq_generated (h : ((adapt header supplied target filling).runOn s).1 = .ok g) :
    ∃ values body, FilledBy (filling.given? (openParams supplied target.signature))
        (openParams supplied target.signature) values ∧
      g = .generated header ⟨supplied.params, target.signature.result⟩ body ∧
      body.locals = absentTypes
        (filledConstants ((openParams supplied target.signature).zip values)) := by
  obtain ⟨-, forwarded, values, code, locals, hforward, hvalues, hload, hassemble⟩ := adapt_eq_ok h
  obtain ⟨body, hgives, hlocals⟩ := (fetches_of_adapt hforward hload).gives_assemble header
    supplied.params target
  rw [hgives s] at hassemble
  rw [constants_forwardedSources] at hlocals
  exact ⟨values, body, filledBy_of_values hvalues, (Except.ok.inj hassemble).symm, hlocals⟩

end Outcome

/-- **Adapting fails for the first fault only.** The error is that of the first stage at fault. If
there is none, the new procedure has the supplied parameters and the target's result, and a local
slot for each absent value among those of the open parameters, of its parameter's type and in their
order. -/
theorem adapt_first_fault (header : Header) (supplied : Signature) (target : Procedure)
    (filling : Filling) (s : Store) :
    (∀ e, ((adapt header supplied target filling).runOn s).1 = .error e ↔
      ∃ stage, IsFirst (adaptFault supplied target.signature filling) stage e) ∧
    ((∃ values body, FilledBy (filling.given? (openParams supplied target.signature))
          (openParams supplied target.signature) values ∧
        ((adapt header supplied target filling).runOn s).1
          = .ok (.generated header ⟨supplied.params, target.signature.result⟩ body) ∧
        body.locals = absentTypes
          (filledConstants ((openParams supplied target.signature).zip values))) ↔
      ∀ stage e, ¬ adaptFault supplied target.signature filling stage e) := by
  have hreports := reports_adapt header supplied target filling s
  refine ⟨hreports, ?_, ?_⟩
  · rintro ⟨values, body, -, hrun, -⟩
    rw [hrun] at hreports
    exact hreports.no_fault
  · intro hnone
    obtain ⟨g, hg⟩ := hreports.exists_ok hnone
    obtain ⟨values, body, hfilled, rfl, hlocals⟩ := adapt_eq_generated hg
    exact ⟨values, body, hfilled, hg, hlocals⟩

example : ((adapt ⟨2, "g", 0⟩ ⟨[], .unit⟩ (.host 1 "f" ⟨[.ofType (.reference "C"), .ofType .i32],
      .unit⟩ fun _ => .ok .unit) (.positional [.null])).runOn .empty).1
    = .error (.missingDefault "#1: I32") := rfl

end CallAdapter
