import CallAdapter.Proofs.TypeDefaults

/-!
# First faults

A construction goes through the parameters in order and stops at the first one that it cannot
handle. `Reports fault r` says that `r` is the outcome of such a construction: its errors are the
faults at the first index that has one, so that it succeeds exactly if there are none
(`Reports.no_fault`). `Reports.bind` follows a construction by one step.

`ConstantFault` lists what can be wrong with a constant. By `loadConstant_error_iff` it is exactly
what `loadConstant` reports. Once all arguments can be fetched nothing else goes wrong: the adapter
is assembled, with a local slot for each constant without a value (`Fetches.gives_assemble`).
-/

namespace CallAdapter

/-! ### Reporting the first fault -/

section Reporting

variable {ε α β : Type} {fault : Nat → ε → Prop}

/-- There is this fault at an index, and none before it. -/
def IsFirst (fault : Nat → ε → Prop) (i : Nat) (e : ε) : Prop :=
  fault i e ∧ ∀ j < i, ∀ e', ¬ fault j e'

/-- The errors of the outcome are the first faults. -/
def Reports (fault : Nat → ε → Prop) (r : Except ε α) : Prop :=
  ∀ e, r = .error e ↔ ∃ i, IsFirst fault i e

theorem isFirst_succ_iff (h : ∀ e, ¬ fault 0 e) (i : Nat) (e : ε) :
    IsFirst fault (i + 1) e ↔ IsFirst (fun i => fault (i + 1)) i e := by
  refine and_congr_right fun _ => ⟨fun hnone j hj => hnone (j + 1) (by omega), fun hnone j hj => ?_⟩
  cases j with
  | zero => exact h
  | succ j => exact hnone j (by omega)

/-- Where there is a fault, there is a first one. -/
theorem exists_isFirst {i : Nat} {e : ε} (h : fault i e) : ∃ j e', IsFirst fault j e' := by
  classical
  have hex : ∃ j, ∃ e', fault j e' := ⟨i, e, h⟩
  obtain ⟨e', he'⟩ := Nat.find_spec hex
  exact ⟨Nat.find hex, e', he', fun j hj e'' hfault => Nat.find_min hex hj ⟨e'', hfault⟩⟩

theorem Reports.ok (h : ∀ i e, ¬ fault i e) (a : α) : Reports fault (.ok a) := by
  intro e
  constructor
  · intro herror
    cases herror
  · rintro ⟨i, hfault, -⟩
    exact absurd hfault (h i e)

/-- A construction that has succeeded had no fault. -/
theorem Reports.no_fault {a : α} (h : Reports fault (.ok a)) (i : Nat) (e : ε) : ¬ fault i e := by
  intro hfault
  obtain ⟨j, e', hfirst⟩ := exists_isFirst hfault
  cases (h e').mpr ⟨j, hfirst⟩

/-- A construction without faults succeeds. -/
theorem Reports.exists_ok {r : Except ε α} (h : Reports fault r) (hnone : ∀ i e, ¬ fault i e) :
    ∃ a, r = .ok a := by
  cases r with
  | ok a => exact ⟨a, rfl⟩
  | error e =>
    obtain ⟨i, hfault, -⟩ := (h e).mp rfl
    exact absurd hfault (hnone i e)

/-- The first step reports the faults at the index zero, and what follows it those behind. -/
theorem Reports.bind {x : Except ε α} {f : α → Except ε β}
    (hhead : ∀ e, x = .error e ↔ fault 0 e)
    (htail : ∀ a, x = .ok a → Reports (fun i => fault (i + 1)) (f a)) :
    Reports fault (x >>= f) := by
  intro e
  cases x with
  | error e₀ =>
    have hzero := (hhead e₀).mp rfl
    constructor
    · intro he
      cases he
      exact ⟨0, hzero, by simp⟩
    · rintro ⟨i, hfault, hnone⟩
      cases i with
      | zero =>
        cases (hhead e).mpr hfault
        rfl
      | succ i => exact absurd hzero (hnone 0 (by omega) e₀)
  | ok a =>
    -- There is no fault at zero, so that the first one, if any, is behind it.
    have hzero : ∀ e, ¬ fault 0 e := by
      intro e hfault
      cases (hhead e).mpr hfault
    refine (htail a rfl e).trans ⟨?_, ?_⟩
    · rintro ⟨i, hfirst⟩
      exact ⟨i + 1, (isFirst_succ_iff hzero i e).mpr hfirst⟩
    · rintro ⟨i, hfirst⟩
      cases i with
      | zero => exact absurd hfirst.1 (hzero e)
      | succ i => exact ⟨i, (isFirst_succ_iff hzero i e).mp hfirst⟩

/-- The first step has failed. -/
theorem Reports.error {e : ε} (h : ∀ e', fault 0 e' ↔ e' = e) :
    Reports fault (.error e : Except ε α) := by
  refine Reports.bind (x := (.error e : Except ε α)) (f := pure) ?_ ?_
  · intro e'
    rw [h e', Except.error.injEq]
    exact eq_comm
  · intro a ha
    cases ha

/-- What follows the construction cannot fail. -/
theorem Reports.bind_ok {x : Except ε α} {f : α → Except ε β} (h : Reports fault x)
    (hf : ∀ a, x = .ok a → ∃ b, f a = .ok b) : Reports fault (x >>= f) := by
  cases x with
  | error e₀ =>
    intro e
    rw [← h e]
    exact ⟨fun he => congrArg _ (Except.error.inj he), fun he => congrArg _ (Except.error.inj he)⟩
  | ok a =>
    obtain ⟨b, hb⟩ := hf a rfl
    show Reports fault (f a)
    rw [hb]
    exact Reports.ok h.no_fault b

/-- The check that refuses with an error if a condition holds. -/
def refuseIf (c : Prop) [Decidable c] (e : ε) : Except ε Unit := if c then .error e else .ok ()

theorem refuseIf_error_iff {c : Prop} [Decidable c] {e e' : ε} :
    refuseIf c e = .error e' ↔ c ∧ e' = e := by
  unfold refuseIf
  split
  · next hc => simpa [hc] using eq_comm
  · next hc => simp [hc]

theorem refuseIf_bind {c : Prop} [Decidable c] (e : ε) (x : Except ε α) :
    (refuseIf c e >>= fun _ => x) = if c then .error e else x := by
  unfold refuseIf
  split <;> rfl

/-- The faults behind an entry are those when it has been gone through. -/
theorem faults_behind (faults : List α → Nat → ε → Prop) (before : List α) (a : α)
    (rest : List α) :
    (fun i => faults (before ++ a :: rest) (before.length + (i + 1)))
      = fun i => faults ((before ++ [a]) ++ rest) (before.length + 1 + i) := by
  funext i
  rw [List.append_assoc, Nat.add_right_comm]
  rfl

theorem Reports.map {r : Except ε α} (h : Reports fault r) (f : α → β) : Reports fault (r.map f) :=
  fun e => map_eq_error_iff.trans (h e)

end Reporting

section Tasks

variable {ε α β : Type}

theorem Task.fst_runOn_bind (x : Task ε α) (f : α → Task ε β) (s : Store) :
    ((x >>= f).runOn s).1 = (x.runOn s).1 >>= fun a => ((f a).runOn (x.runOn s).2).1 := by
  rw [runOn_bind]
  rcases x.runOn s with ⟨e | a, s'⟩ <;> rfl

theorem Task.fst_runOn_ofExcept_bind (x : Except ε α) (f : α → Task ε β) (s : Store) :
    ((ofExcept x >>= f).runOn s).1 = x >>= fun a => ((f a).runOn s).1 :=
  fst_runOn_bind _ f s

end Tasks

/-! ### Faults of constants -/

/-- The value is of one of the kinds that code can hold. -/
def Value.isPrimitive : Value → Bool
  | .bool _ | .u8 _ | .i16 _ | .i32 _ | .i64 _ | .f32 _ | .f64 _ | .str _ => true
  | _ => false

/-- The type that a literal for a parameter of type `t` has: the type inside a nullable wrapper. -/
def ValueType.literalType (t : ValueType) : ValueType := t.underlying?.getD t

/-- The literal that is written for a value at a parameter of type `t`: at a nullable type one
wrapper of the value is taken off. -/
def ValueType.literal (t : ValueType) (v : Value) : Value :=
  if t.underlying?.isSome then v.unwrap else v

/-- What is wrong with a constant for a parameter of type `t` when `absent` constants before it had
no value. -/
inductive ConstantFault (absent : Nat) (t : ValueType) : Option Value → BuildError → Prop
  /-- No constant of the type can be written into code. -/
  | unsupported {v : Option Value} : (t = .object ∨ ∃ name, t = .reference name) →
      ConstantFault absent t v (.unsupportedType t)
  /-- There is no value, and no local slot is left to make one. -/
  | noSlot {v : Option Value} : t.isSimple = true → v.all Value.isAbsent = true → 256 ≤ absent →
      ConstantFault absent t v (.limitExceeded .localSlot 256)
  /-- The value is of another type. -/
  | mismatch {v : Value} : t.isSimple = true → v.isAbsent = false →
      (t.literal v).isInstance t.literalType = false →
      ConstantFault absent t (some v)
        (.valueMismatch ((t.literal v).text ++ " of type " ++ (t.literal v).typeName) t.literalType)
  /-- The value is of the type but is no literal. -/
  | unwritable {v : Value} : t.isSimple = true → v.isAbsent = false →
      (t.literal v).isInstance t.literalType = true → (t.literal v).isPrimitive = false →
      ConstantFault absent t (some v) (.unsupportedType t.literalType)

def absentTypes (constants : List (ValueType × Option Value)) : List ValueType :=
  (constants.filter fun c => c.2.all Value.isAbsent).map Prod.fst

theorem absentTypes_append (constants constants' : List (ValueType × Option Value)) :
    absentTypes (constants ++ constants') = absentTypes constants ++ absentTypes constants' := by
  simp [absentTypes]

theorem isSimple_eq_false_iff {t : ValueType} :
    t.isSimple = false ↔ t = .object ∨ ∃ name, t = .reference name := by
  cases t <;> simp [ValueType.isSimple, ValueType.isValueType]

theorem literal?_eq_none_iff {κ : Type} {v : Value} :
    (v.literal? : Option (Instruction κ)) = none ↔ v.isPrimitive = false := by
  cases v <;> simp [Value.literal?, Value.isPrimitive]

/-- Indices are counted up one by one, so the first one that does not fit is the limit itself. -/
theorem shortIndex_error_iff {kind : IndexKind} {n : Nat} {e : BuildError} (h : n ≤ 256) :
    shortIndex kind n = .error e ↔ 256 ≤ n ∧ e = .limitExceeded kind 256 := by
  unfold shortIndex
  split
  · next hlt => simp [hlt]
  · next hge =>
    obtain rfl : n = 256 := by omega
    simpa using eq_comm

theorem declaredDefault_error_iff {p : Parameter} {position : Nat} {e : BuildError} :
    p.declaredDefault position = .error e ↔
      p.default = none ∧ e = .missingDefault (p.label position) := by
  unfold Parameter.declaredDefault
  cases p.default with
  | some v => simp
  | none => simpa using eq_comm

theorem loadLiteral_error_iff {κ : Type} {v : Value} {t : ValueType} {e : BuildError} :
    (loadLiteral v t : Except BuildError (Instruction κ)) = .error e ↔
      (v.isInstance t = false ∧ e = .valueMismatch (v.text ++ " of type " ++ v.typeName) t) ∨
      (v.isInstance t = true ∧ v.isPrimitive = false ∧ e = .unsupportedType t) := by
  unfold loadLiteral
  cases v.isInstance t with
  | false => simpa using eq_comm
  | true =>
    have hnone : (v.literal? : Option (Instruction κ)) = none ↔ _ := literal?_eq_none_iff
    cases hliteral : (v.literal? : Option (Instruction κ)) with
    | some i =>
      have hprimitive : v.isPrimitive = true := by simpa [hliteral] using hnone
      simp [hprimitive]
    | none => simpa [hnone.mp hliteral] using eq_comm

section Constants

variable {v : Option Value} {t : ValueType} {locals : Locals} {e : BuildError}

theorem filter_eq_none_iff :
    v.filter (fun v => !v.isAbsent) = none ↔ v.all Value.isAbsent = true := by
  cases v <;> simp

theorem loadConstant_of_not_isSimple (h : t.isSimple = false) :
    loadConstant v t locals = .error (.unsupportedType t) := by
  rw [loadConstant_eq, runOn_writeConstant_unsupported h]
  rfl

/-- For an absent value nothing is missing but a slot. -/
theorem loadConstant_of_absent (h : t.isSimple = true) (hv : v.all Value.isAbsent = true) :
    loadConstant v t locals = .error e ↔ shortIndex .localSlot locals.size = .error e := by
  rw [loadConstant_eq, writeConstant_absent h (filter_eq_none_iff.mpr hv), map_eq_error_iff]
  cases hindex : shortIndex .localSlot locals.size with
  | error e' => simp [runOn_loadInitial_error t hindex]
  | ok index => simp [runOn_loadInitial_ok t hindex]

theorem loadConstant_of_present (h : t.isSimple = true) {w : Value} (hw : w.isAbsent = false)
    (locals : Locals) :
    ∃ f : Instruction Callee → List (Instruction Callee) × Locals,
      loadConstant (some w) t locals = (loadLiteral (t.literal w) t.literalType).map f := by
  have hmap (x : Except BuildError (Instruction Callee))
      (g : Instruction Callee → List (Instruction Callee)) :
      (x.map g).map (fun code => (code, locals)) = x.map fun i => (g i, locals) := by
    cases x <;> rfl
  rw [loadConstant_eq]
  cases hunderlying : t.underlying? with
  | none =>
    rw [runOn_writeConstant_plain h hw hunderlying, hmap]
    cases t <;> first
      | exact ⟨_, rfl⟩
      | cases hunderlying
  | some u =>
    obtain rfl : t = .nullable u := by
      cases t <;> cases hunderlying
      rfl
    rw [runOn_writeConstant_wrapped hw, hmap]
    exact ⟨_, rfl⟩

/-- A constant is refused for its faults alone. -/
theorem loadConstant_error_iff (h : locals.size ≤ 256) :
    loadConstant v t locals = .error e ↔ ConstantFault locals.size t v e := by
  cases hsimple : t.isSimple with
  | false =>
    rw [loadConstant_of_not_isSimple hsimple]
    constructor
    · intro he
      cases he
      exact .unsupported (isSimple_eq_false_iff.mp hsimple)
    · intro hfault
      cases hfault with
      | unsupported => rfl
      | noSlot htrue | mismatch htrue | unwritable htrue => simp [hsimple] at htrue
  | true =>
    have hsupported : ¬ (t = .object ∨ ∃ name, t = .reference name) := by
      rw [← isSimple_eq_false_iff, hsimple]
      simp
    -- The type is supported. Either the slot can fail or the literal, never both.
    cases habsent : v.all Value.isAbsent with
    | true =>
      rw [loadConstant_of_absent hsimple habsent, shortIndex_error_iff h]
      constructor
      · rintro ⟨hfull, rfl⟩
        exact .noSlot hsimple habsent hfull
      · intro hfault
        cases hfault with
        | unsupported hrefused => exact absurd hrefused hsupported
        | noSlot _ _ hfull => exact ⟨hfull, rfl⟩
        | mismatch _ hw | unwritable _ hw => simp [hw] at habsent
    | false =>
      obtain ⟨w, rfl, hw⟩ : ∃ w, v = some w ∧ w.isAbsent = false := by
        cases v with
        | none => simp at habsent
        | some w => exact ⟨w, rfl, by simpa using habsent⟩
      obtain ⟨f, hload⟩ := loadConstant_of_present hsimple hw locals
      rw [hload, map_eq_error_iff, loadLiteral_error_iff]
      constructor
      · rintro (⟨hinst, rfl⟩ | ⟨hinst, hprimitive, rfl⟩)
        · exact .mismatch hsimple hw hinst
        · exact .unwritable hsimple hw hinst hprimitive
      · intro hfault
        cases hfault with
        | unsupported hrefused => exact absurd hrefused hsupported
        | noSlot _ habsent' => simp [hw] at habsent'
        | mismatch _ _ hinst => exact .inl ⟨hinst, rfl⟩
        | unwritable _ _ hinst hprimitive => exact .inr ⟨hinst, hprimitive, rfl⟩

theorem LoadedBy.types_eq {code : List (Instruction Callee)} {locals' : Locals}
    (h : LoadedBy t locals v (code, locals')) :
    locals'.types = locals.types ++ absentTypes [(t, v)] := by
  cases h with
  | absent hnone => simp [absentTypes, filter_eq_none_iff.mp hnone]
  | plain hpresent | wrapped hpresent => simp [absentTypes, hpresent]

theorem LoadedBy.size_le_limit {code : List (Instruction Callee)} {locals' : Locals}
    (h : LoadedBy t locals v (code, locals')) (hsize : locals.size ≤ 256) : locals'.size ≤ 256 := by
  cases h with
  | absent _ hlt =>
    simp only [Locals.size, List.length_append, List.length_singleton] at hlt ⊢
    omega
  | plain | wrapped => exact hsize

end Constants

/-! ### The slots of an adapter -/

/-- The constant that is loaded for a source, with its type. -/
def Source.constant? : Source → Option (ValueType × Option Value)
  | .argument _ => none
  | .constant v t => some (t, v)

/-- Each constant without a value has asked for a slot of its type. -/
theorem Fetches.types_eq {locals locals' : Locals} {sources : List Source}
    {code : List (Instruction Callee)} (h : Fetches locals sources code locals') :
    locals'.types = locals.types ++ absentTypes (sources.filterMap Source.constant?) := by
  induction h with
  | nil => simp [absentTypes]
  | argument _ _ ih => exact ih
  | @constant v t _ _ _ sources _ _ hload _ ih =>
    rw [ih, hload.types_eq, List.append_assoc, ← absentTypes_append]
    rfl

/-- An adapter whose arguments can be fetched is assembled. -/
theorem Fetches.gives_assemble (header : Header) (params : List Parameter) (target : Procedure)
    {locals : Locals} {sources : List Source} {code : List (Instruction Callee)}
    (h : Fetches .empty sources code locals) :
    ∃ body, (assemble header params target code locals).Gives
        (.ok (.generated header ⟨params, target.signature.result⟩ body)) ∧
      body.locals = absentTypes (sources.filterMap Source.constant?) := by
  obtain ⟨body, hfinish⟩ := h.exists_finish target
  obtain ⟨-, hlocals⟩ := Draft.finish_eq_ok hfinish
  exact ⟨body, CallAdapter.gives_assemble hfinish, hlocals.trans h.types_eq⟩

end CallAdapter
