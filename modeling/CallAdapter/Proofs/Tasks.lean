import CallAdapter.Store

/-!
# Tasks and the store

`Task.Gives x r` says that `x` has the outcome `r` on every store, and `Task.Settled x` that it has
some such outcome. Both are closed under sequencing, so that a run of the machine can be followed
without looking at the store. A zero value that a resolver keeps is the one that it would construct
again, so that asking for one is settled.

What a task can do with the store is said once, by `Task.Acts`. Whatever is true of the few things
that a task can do, and is carried over from one thing to the next, is true of the task: see
`Acts.settled` and `Acts.related`.
-/

namespace CallAdapter

/-! ### Outcomes without effects -/

section Outcomes

variable {ε α β : Type} {x : Except ε α} {b : β}

theorem exists_of_bind_eq_ok {f : α → Except ε β} (h : x >>= f = .ok b) :
    ∃ a, x = .ok a ∧ f a = .ok b := by
  cases x with
  | error e => cases h
  | ok a => exact ⟨a, rfl, h⟩

theorem exists_of_map_eq_ok {f : α → β} (h : x.map f = .ok b) : ∃ a, x = .ok a ∧ f a = b := by
  cases x with
  | error e => cases h
  | ok a => exact ⟨a, rfl, Except.ok.inj h⟩

theorem map_eq_error_iff {f : α → β} {e : ε} : x.map f = .error e ↔ x = .error e := by
  cases x <;> simp [Except.map]

end Outcomes

/-! ### Tasks -/

namespace Task

variable {ε α β : Type}

@[simp] theorem runOn_pure (a : α) (s : Store) : (pure a : Task ε α).runOn s = (.ok a, s) := rfl

@[simp] theorem runOn_throw (e : ε) (s : Store) :
    (throw e : Task ε α).runOn s = (.error e, s) := rfl

@[simp] theorem runOn_ofExcept (x : Except ε α) (s : Store) : (ofExcept x).runOn s = (x, s) := rfl

@[simp] theorem runOn_update (f : Store → Store) (s : Store) :
    (update f : Task ε Unit).runOn s = (.ok (), f s) := rfl

@[simp] theorem runOn_zero? (r : ResolverId) (t : ValueType) (s : Store) :
    (zero? r t : Task ε (Option Value)).runOn s = (.ok (s.zero? r t).1, (s.zero? r t).2) := rfl

@[simp] theorem runOn_cell (id : ProcedureId) (o : Outline) (s : Store) :
    (cell id o).runOn s = s.fillCell id o := rfl

theorem runOn_bind (x : Task ε α) (f : α → Task ε β) (s : Store) :
    (x >>= f).runOn s =
      match x.runOn s with
      | (.ok a, s') => (f a).runOn s'
      | (.error e, s') => (.error e, s') := by
  show ((ExceptT.run (x >>= f)).run s) = _
  simp only [runOn, ExceptT.run_bind, StateT.run_bind]
  rcases (ExceptT.run x).run s with ⟨_ | a, s'⟩ <;> rfl

theorem runOn_map (f : α → β) (x : Task ε α) (s : Store) :
    (f <$> x).runOn s = ((x.runOn s).1.map f, (x.runOn s).2) := by
  rw [← bind_pure_comp, runOn_bind]
  rcases x.runOn s with ⟨e | a, s'⟩ <;> rfl

/-- A sequence of tasks succeeds only if each of them does. -/
theorem ok_of_bind {x : Task ε α} {f : α → Task ε β} {s : Store} {b : β}
    (h : ((x >>= f).runOn s).1 = .ok b) :
    ∃ a s', x.runOn s = (.ok a, s') ∧ ((f a).runOn s').1 = .ok b := by
  rw [runOn_bind] at h
  rcases hrun : x.runOn s with ⟨e | a, s'⟩
  · rw [hrun] at h
    cases h
  · rw [hrun] at h
    exact ⟨a, s', rfl, h⟩

theorem ok_of_map {f : α → β} {x : Task ε α} {s : Store} {b : β}
    (h : ((f <$> x).runOn s).1 = .ok b) : ∃ a, (x.runOn s).1 = .ok a ∧ f a = b := by
  rw [← bind_pure_comp] at h
  obtain ⟨a, s', hx, hb⟩ := ok_of_bind h
  cases hb
  exact ⟨a, congrArg Prod.fst hx, rfl⟩

theorem ok_of_ofExcept_bind {x : Except ε α} {f : α → Task ε β} {s : Store} {b : β}
    (h : ((ofExcept x >>= f).runOn s).1 = .ok b) :
    ∃ a, x = .ok a ∧ ((f a).runOn s).1 = .ok b := by
  obtain ⟨a, s', hx, hb⟩ := ok_of_bind h
  cases hx
  exact ⟨a, rfl, hb⟩

/-- The task has this outcome on every store. -/
def Gives (x : Task ε α) (r : Except ε α) : Prop := ∀ s, (x.runOn s).1 = r

/-- The outcome of the task is the same on every store. -/
def Settled (x : Task ε α) : Prop := ∃ r, x.Gives r

theorem gives_pure (a : α) : (pure a : Task ε α).Gives (.ok a) :=
  fun s => congrArg Prod.fst (runOn_pure a s)

theorem gives_throw (e : ε) : (throw e : Task ε α).Gives (.error e) :=
  fun s => congrArg Prod.fst (runOn_throw e s)

theorem gives_ofExcept (x : Except ε α) : (ofExcept x).Gives x :=
  fun s => congrArg Prod.fst (runOn_ofExcept x s)

theorem gives_update (f : Store → Store) : (update f : Task ε Unit).Gives (.ok ()) :=
  fun s => congrArg Prod.fst (runOn_update f s)

/-- Outcomes are sequenced like the tasks. -/
theorem Gives.bind {x : Task ε α} {r : Except ε α} {f : α → Task ε β} {g : α → Except ε β}
    (hx : x.Gives r) (hf : ∀ a, r = .ok a → (f a).Gives (g a)) : (x >>= f).Gives (r >>= g) := by
  intro s
  have hs := hx s
  rw [runOn_bind]
  rcases hrun : x.runOn s with ⟨e | a, s'⟩
  · rw [hrun] at hs
    subst hs
    rfl
  · rw [hrun] at hs
    subst hs
    exact hf a rfl s'

theorem Gives.bind_ok {x : Task ε α} {a : α} {f : α → Task ε β} {r : Except ε β}
    (hx : x.Gives (.ok a)) (hf : (f a).Gives r) : (x >>= f).Gives r :=
  hx.bind (g := fun _ => r) fun _ h => Except.ok.inj h ▸ hf

theorem Gives.map {x : Task ε α} {r : Except ε α} (f : α → β) (hx : x.Gives r) :
    (f <$> x).Gives (f <$> r) := by
  rw [← bind_pure_comp, ← bind_pure_comp]
  exact hx.bind fun a _ => gives_pure (f a)

/-- What comes second has to be settled for the results that the first task can have. -/
theorem Settled.bind {x : Task ε α} {f : α → Task ε β} (hx : x.Settled)
    (hf : ∀ a s, (x.runOn s).1 = .ok a → (f a).Settled) : (x >>= f).Settled := by
  obtain ⟨r, hr⟩ := hx
  cases r with
  | error e => exact ⟨.error e, hr.bind (g := fun _ => .error e) (by simp)⟩
  | ok a =>
    obtain ⟨r', hr'⟩ := hf a .empty (hr .empty)
    exact ⟨r', hr.bind_ok hr'⟩

theorem settled_ofExcept (x : Except ε α) : (ofExcept x).Settled := ⟨_, gives_ofExcept x⟩

/-- A settled task has the same outcome on any two stores. -/
theorem Settled.gives_runOn {x : Task ε α} (h : x.Settled) (s : Store) :
    x.Gives (x.runOn s).1 := by
  obtain ⟨r, hr⟩ := h
  rw [hr s]
  exact hr

theorem gives_mapM {f : α → Task ε β} {g : α → β} (h : ∀ a, (f a).Gives (.ok (g a))) :
    ∀ as : List α, (as.mapM f).Gives (.ok (as.map g))
  | [] => by
    rw [List.mapM_nil]
    exact gives_pure []
  | a :: as => by
    rw [List.mapM_cons]
    exact (h a).bind_ok ((gives_mapM h as).bind_ok (gives_pure _))

end Task

/-! ### Zero values -/

/-- What is kept for a type is the zero value of this type. -/
theorem ZeroCache.value_of_find? {c : ZeroCache} {t : ValueType} {entry : ZeroEntry}
    (h : c.find? t = some entry) : entry.value = t.initial := by
  have htype : entry.type = t := by simpa using List.find?_some h
  rw [entry.value_eq, htype]

/-- A resolver hands out the zero value of a type, whether it keeps one or not. -/
theorem Store.zero?_fst (s : Store) (r : ResolverId) (t : ValueType) :
    (s.zero? r t).1 = t.zero? := by
  unfold Store.zero? ValueType.zero?
  split
  · split
    · next entry hentry => rw [ZeroCache.value_of_find? hentry]
    · rfl
  · rfl

theorem ValueType.zero?_getD (t : ValueType) : t.zero?.getD .null = t.initial := by
  cases t <;> simp [ValueType.zero?, ValueType.isValueType, ValueType.initial]

namespace Task

variable {ε : Type}

theorem gives_zero? (r : ResolverId) (t : ValueType) :
    (zero? r t : Task ε (Option Value)).Gives (.ok t.zero?) := by
  intro s
  rw [runOn_zero?, Store.zero?_fst]

theorem gives_initial (r : ResolverId) (t : ValueType) :
    (initial r t : Task ε Value).Gives (.ok t.initial) := by
  rw [← ValueType.zero?_getD]
  exact (gives_zero? r t).bind_ok (gives_pure _)

end Task

/-! ### What tasks do with the store -/

/-- The event is that the body of the procedure has been decoded. -/
def Event.isDecoding (id : ProcedureId) : Event → Bool
  | .decoded procedure _ _ => procedure == id
  | _ => false

namespace Task

variable {ε α β : Type} {P P' : ResolverId → ValueType → Prop}
  {C C' : {α : Type} → Task ε α → Prop} {x : Task ε α}

/-- The task may fail, may log events that are not about decoding, may ask for the zero values that
`P` allows, and may carry out the tasks that `C` allows; there is nothing else that it does with the
store. -/
inductive Acts (P : ResolverId → ValueType → Prop) (C : {α : Type} → Task ε α → Prop) :
    {α : Type} → Task ε α → Prop
  | ofExcept {α : Type} (x : Except ε α) : Acts P C (Task.ofExcept x)
  | log {e : Event} : (∀ id, e.isDecoding id = false) → Acts P C (Task.update (Store.log · e))
  | zero? {r : ResolverId} {t : ValueType} : P r t → Acts P C (Task.zero? r t)
  | other {α : Type} {x : Task ε α} : C x → Acts P C x
  | bind {α β : Type} {x : Task ε α} {f : α → Task ε β} : Acts P C x →
      (∀ a s, (x.runOn s).1 = .ok a → Acts P C (f a)) → Acts P C (x >>= f)

/-- The task does nothing but fail, log, and ask for the zero values that `P` allows. -/
abbrev Asks (P : ResolverId → ValueType → Prop) (x : Task ε α) : Prop := x.Acts P fun _ => False

theorem acts_pure (a : α) : (pure a : Task ε α).Acts P C := .ofExcept (.ok a)

theorem acts_throw (e : ε) : (throw e : Task ε α).Acts P C := .ofExcept (.error e)

theorem Acts.map (f : α → β) (h : x.Acts P C) : (f <$> x).Acts P C := by
  rw [← bind_pure_comp]
  exact h.bind fun a _ _ => acts_pure _

theorem acts_initial {r : ResolverId} {t : ValueType} (h : P r t) :
    (initial r t : Task ε Value).Acts P C :=
  .bind (.zero? h) fun _ _ _ => acts_pure _

theorem acts_mapM {f : α → Task ε β} (h : ∀ a, (f a).Acts P C) (as : List α) :
    (as.mapM f).Acts P C := by
  induction as with
  | nil =>
    rw [List.mapM_nil]
    exact acts_pure _
  | cons a as ih =>
    rw [List.mapM_cons]
    exact .bind (h a) fun b _ _ => .bind ih fun bs _ _ => acts_pure _

/-- The tasks that are carried out may be taken apart in turn. -/
theorem Acts.expand (h : x.Acts P C) (hP : ∀ r t, P r t → P' r t)
    (hC : ∀ {α : Type} (y : Task ε α), C y → y.Acts P' C') : x.Acts P' C' := by
  induction h with
  | ofExcept x => exact .ofExcept x
  | log he => exact .log he
  | zero? hask => exact .zero? (hP _ _ hask)
  | other hother => exact hC _ hother
  | bind _ _ hx hf => exact .bind hx hf

theorem Acts.settled (h : x.Acts P C) (hC : ∀ {α : Type} (y : Task ε α), C y → y.Settled) :
    x.Settled := by
  induction h with
  | ofExcept x => exact settled_ofExcept x
  | log _ => exact ⟨_, gives_update _⟩
  | zero? _ => exact ⟨_, gives_zero? _ _⟩
  | other hother => exact hC _ hother
  | bind _ _ hx hf => exact hx.bind hf

theorem Asks.settled (h : x.Asks P) : x.Settled := Acts.settled h fun _ hnone => hnone.elim

/-- If tasks take stores to related stores, so do sequences of them. -/
theorem related_bind {R : Store → Store → Prop}
    (htrans : ∀ {s s' s'' : Store}, R s s' → R s' s'' → R s s'') {f : α → Task ε β}
    (hx : ∀ s, R s (x.runOn s).2)
    (hf : ∀ a s, (x.runOn s).1 = .ok a → ∀ s', R s' ((f a).runOn s').2) (s : Store) :
    R s ((x >>= f).runOn s).2 := by
  have hs := hx s
  rw [runOn_bind]
  rcases hrun : x.runOn s with ⟨e | a, s'⟩
  · rw [hrun] at hs
    exact hs
  · rw [hrun] at hs
    exact htrans hs (hf a s (congrArg Prod.fst hrun) s')

/-- A task takes stores to related stores if all that it can do with the store does. -/
theorem Acts.related {R : Store → Store → Prop} (h : x.Acts P C) (hrefl : ∀ s, R s s)
    (htrans : ∀ {s s' s'' : Store}, R s s' → R s' s'' → R s s'')
    (hlog : ∀ s e, (∀ id, e.isDecoding id = false) → R s (s.log e))
    (hzero : ∀ s r t, P r t → R s (s.zero? r t).2)
    (hC : ∀ {α : Type} (y : Task ε α), C y → ∀ s, R s (y.runOn s).2) (s : Store) :
    R s (x.runOn s).2 := by
  induction h generalizing s with
  | ofExcept x => exact hrefl s
  | log he => exact hlog s _ he
  | zero? hask => exact hzero s _ _ hask
  | other hother => exact hC _ hother s
  | bind _ _ hx hf => exact related_bind (R := R) htrans hx hf s

end Task

end CallAdapter
