import CallAdapter.Proofs.Histories

/-!
# Zero values are constructed once

A generated procedure asks resolvers for zero values: for its locals, when a value is initialised
through an address, and in the procedures that it calls. The main theorem, `invoke_saturates`, says
that one successful call is enough: afterwards no call of the same procedure changes the cache of any
resolver, whatever its arguments are and whether it succeeds or not.

The reason is that code has no jumps. A call that returns has carried out every instruction up to its
return, and no other call gets beyond that one. A family of tasks *saturates* if none of them makes a
resolver forget, and once one of them has succeeded, none of them changes a cache, then or later. This
is closed under sequencing. The steps of an instruction on all frames are such a family, and so are the
runs of code and, by induction on procedures, the calls of a procedure.
-/

namespace CallAdapter

open CallAdapter.Task

/-! ### What resolvers keep -/

def ZeroCache.types (c : ZeroCache) : List ValueType := c.entries.map ZeroEntry.type

theorem ZeroCache.find?_eq_none_iff (c : ZeroCache) (t : ValueType) :
    c.find? t = none ↔ t ∉ c.types := by
  simp [find?, types]

theorem ZeroCache.types_construct (c : ZeroCache) (t : ValueType) :
    (c.construct t).types = c.types ++ [t] := by
  simp [construct, types]

namespace Store

variable {s s' s'' : Store} {r : ResolverId} {t : ValueType}

def Keeps (s : Store) (r : ResolverId) (t : ValueType) : Prop := t ∈ (s.cache r).types

/-- Every resolver has the same cache in both stores: the same zero values are kept, and as many have
been constructed. -/
def SameCaches (s s' : Store) : Prop := ∀ r, s'.cache r = s.cache r

def Within (s s' : Store) : Prop := ∀ r t, s.Keeps r t → s'.Keeps r t

theorem SameCaches.trans (h : s.SameCaches s') (h' : s'.SameCaches s'') : s.SameCaches s'' :=
  fun r => (h' r).trans (h r)

theorem SameCaches.within (h : s.SameCaches s') : s.Within s' := by
  intro r t hkeeps
  rwa [Keeps, h r]

theorem Within.trans (h : s.Within s') (h' : s'.Within s'') : s.Within s'' :=
  fun r t hkeeps => h' r t (h r t hkeeps)

theorem cache_setCache (s : Store) (r r' : ResolverId) (c : ZeroCache) :
    (s.setCache r c).cache r' = if r' = r then c else s.cache r' := by
  by_cases h : r' = r
  · simp [cache, setCache, h]
  · have hother (caches : List (ResolverId × ZeroCache)) :
        (caches.filter (·.1 != r)).lookup r' = caches.lookup r' := by
      induction caches with
      | nil => rfl
      | cons entry caches ih =>
        grind [List.lookup]
    have hne : (r' == r) = false := by simp [h]
    simp [cache, setCache, h, List.lookup, hne, hother]

/-- A value that is kept is handed out. Only a value type that is not kept makes a resolver construct
its zero value. -/
theorem zero?_cases (s : Store) (r : ResolverId) (t : ValueType) :
    ((t.isValueType = true → s.Keeps r t) ∧ (s.zero? r t).2 = s) ∨
      (t.isValueType = true ∧ ¬ s.Keeps r t ∧
        (s.zero? r t).2 = (s.log (.constructing r t)).setCache r ((s.cache r).construct t)) := by
  have hkeeps : ¬ s.Keeps r t ↔ (s.cache r).find? t = none :=
    ((s.cache r).find?_eq_none_iff t).symm
  unfold zero?
  split
  · next hvalue =>
    cases hfind : (s.cache r).find? t with
    | some entry =>
      refine .inl ⟨fun _ => ?_, rfl⟩
      by_contra hnot
      rw [hkeeps, hfind] at hnot
      cases hnot
    | none => exact .inr ⟨hvalue, hkeeps.mpr hfind, rfl⟩
  · next hreference => exact .inl ⟨fun h => absurd h hreference, rfl⟩

theorem zero?_of_keeps (h : t.isValueType = true → s.Keeps r t) : (s.zero? r t).2 = s := by
  rcases s.zero?_cases r t with ⟨-, hsame⟩ | ⟨hvalue, hnot, -⟩
  · exact hsame
  · exact absurd (h hvalue) hnot

theorem keeps_zero? (s : Store) (r : ResolverId) (t : ValueType) :
    t.isValueType = true → (s.zero? r t).2.Keeps r t := by
  intro hvalue
  rcases s.zero?_cases r t with ⟨hkeeps, hsame⟩ | ⟨-, -, hnew⟩
  · rw [hsame]
    exact hkeeps hvalue
  · rw [hnew, Keeps, cache_setCache, if_pos rfl, ZeroCache.types_construct]
    simp

theorem within_zero? (s : Store) (r : ResolverId) (t : ValueType) : s.Within (s.zero? r t).2 := by
  intro r' u hkeeps
  rcases s.zero?_cases r t with ⟨-, hsame⟩ | ⟨-, -, hnew⟩
  · rwa [hsame]
  · rw [hnew, Keeps, cache_setCache]
    split
    · next hr =>
      subst hr
      rw [ZeroCache.types_construct]
      exact List.mem_append_left _ hkeeps
    · exact hkeeps

/-- A cell is no cache. -/
theorem sameCaches_fillCell (s : Store) (id : ProcedureId) (o : Outline) :
    s.SameCaches (s.fillCell id o).2 := by
  intro r
  have hcaches : (s.fillCell id o).2.caches = s.caches := by
    unfold fillCell
    split
    · rfl
    · split <;> rfl
  rw [cache, hcaches, ← cache]

end Store

/-! ### Tasks that leave the caches alone -/

namespace Task

variable {ε α β : Type} {x : Task ε α}

/-- The task changes no cache. -/
def Quiet (x : Task ε α) : Prop := ∀ s : Store, s.SameCaches (x.runOn s).2

/-- The task makes no resolver forget. -/
def Grows (x : Task ε α) : Prop := ∀ s : Store, s.Within (x.runOn s).2

theorem Quiet.grows (h : x.Quiet) : x.Grows := fun s => (h s).within

theorem quiet_pure (a : α) : (pure a : Task ε α).Quiet := fun _ _ => rfl

theorem quiet_throw (e : ε) : (throw e : Task ε α).Quiet := fun _ _ => rfl

theorem quiet_ofExcept (x : Except ε α) : (ofExcept x).Quiet := fun _ _ => rfl

theorem Grows.bind {f : α → Task ε β} (hx : x.Grows)
    (hf : ∀ a s, (x.runOn s).1 = .ok a → (f a).Grows) : (x >>= f).Grows :=
  related_bind (R := Store.Within) Store.Within.trans hx hf

theorem quiet_decode {κ : Type} (id : ProcedureId) (b : Body κ) : (Task.decode id b).Quiet :=
  related_bind (R := Store.SameCaches) Store.SameCaches.trans
    (fun s => s.sameCaches_fillCell id b.outline) fun _ _ _ => quiet_ofExcept _

theorem Decodes.quiet {x : Run α} (h : x.Decodes) : x.Quiet := by
  obtain ⟨id, b⟩ := h
  exact quiet_decode id b

section Acts

variable {P : ResolverId → ValueType → Prop} {C : {α : Type} → Task ε α → Prop}

/-- A task that asks for nothing changes no cache. -/
theorem Acts.quiet (h : x.Acts P C) (hP : ∀ r t, ¬ P r t)
    (hC : ∀ {α : Type} (y : Task ε α), C y → y.Quiet) : x.Quiet :=
  h.related (R := Store.SameCaches) (fun _ _ => rfl) Store.SameCaches.trans (fun _ _ _ _ => rfl)
    (fun _ r t hask => absurd hask (hP r t)) hC

theorem Acts.grows (h : x.Acts P C) (hC : ∀ {α : Type} (y : Task ε α), C y → y.Grows) : x.Grows :=
  h.related (R := Store.Within) (fun _ _ _ => id) Store.Within.trans
    (fun _ _ _ => Store.SameCaches.within fun _ => rfl) (fun s r t _ => s.within_zero? r t) hC

end Acts

/-! ### Families of tasks that saturate -/

variable {ι κ : Type} {xs : ι → Task ε α}

/-- None of the tasks makes a resolver forget, and once one of them has succeeded, none of them changes a
cache, then or later. -/
structure Saturates (xs : ι → Task ε α) : Prop where
  grows : ∀ i, (xs i).Grows
  quiet : ∀ i s a s', (xs i).runOn s = (.ok a, s') →
    ∀ j s'', s'.Within s'' → s''.SameCaches ((xs j).runOn s'').2

theorem saturates_of_quiet (h : ∀ i, (xs i).Quiet) : Saturates xs where
  grows i := (h i).grows
  quiet _ _ _ _ _ j s'' _ := h j s''

theorem Saturates.comp (h : Saturates xs) (g : κ → ι) : Saturates fun k => xs (g k) where
  grows k := h.grows (g k)
  quiet k s a s' hrun j := h.quiet (g k) s a s' hrun (g j)

/-- Sequences saturate if the first tasks do, and the second tasks do with the results that the first
ones can have. -/
theorem Saturates.bind_of_results {fs : ι → α → Task ε β} (h : Saturates xs)
    (hgrows : ∀ i a s, ((xs i).runOn s).1 = .ok a → (fs i a).Grows)
    (hquiet : ∀ i s a s', (xs i).runOn s = (.ok a, s') → ∀ b s₁, (fs i a).runOn s' = (.ok b, s₁) →
      ∀ j t a' t', (xs j).runOn t = (.ok a', t') → s₁.Within t' →
        t'.SameCaches ((fs j a').runOn t').2) :
    Saturates fun i => xs i >>= fs i where
  grows i := (h.grows i).bind (hgrows i)
  quiet := by
    intro i s b s₁ hrun j t hlater
    rw [runOn_bind] at hrun
    rcases hi : (xs i).runOn s with ⟨e | a, s'⟩
    · rw [hi] at hrun
      cases hrun
    · rw [hi] at hrun
      have hrun : (fs i a).runOn s' = (.ok b, s₁) := hrun
      -- What the first task has left is still there after the second, and later.
      have hwithin : s'.Within s₁ := by
        have hgrow := hgrows i a s (congrArg Prod.fst hi) s'
        rwa [hrun] at hgrow
      have hfirst := h.quiet i s a s' hi j t (hwithin.trans hlater)
      rw [runOn_bind]
      rcases hj : (xs j).runOn t with ⟨e | a', t'⟩
      · rw [hj] at hfirst
        exact hfirst
      · rw [hj] at hfirst
        exact hfirst.trans
          (hquiet i s a s' hi b s₁ hrun j t a' t' hj (hlater.trans hfirst.within))

theorem Saturates.bind {fs : ι → α → Task ε β} (h : Saturates xs)
    (hf : Saturates fun p : ι × α => fs p.1 p.2) : Saturates fun i => xs i >>= fs i :=
  h.bind_of_results (fun i a _ _ => hf.grows (i, a)) fun i _ a s' _ b s₁ hrun j _ a' t' _ hlater =>
    hf.quiet (i, a) s' b s₁ hrun (j, a') t' hlater

theorem Saturates.map (f : ι → α → β) (h : Saturates xs) : Saturates fun i => f i <$> xs i := by
  have hmap : (fun i => f i <$> xs i) = fun i => xs i >>= fun a => pure (f i a) := by
    funext i
    exact (bind_pure_comp (f i) (xs i)).symm
  rw [hmap]
  exact h.bind (saturates_of_quiet fun _ => quiet_pure _)

theorem saturates_zero? (r : ResolverId) (t : ValueType) :
    Saturates fun _ : ι => (zero? r t : Task ε _) where
  grows _ s := s.within_zero? r t
  quiet := by
    intro _ s a s' hrun _ s'' hlater
    cases hrun
    show s''.SameCaches (s''.zero? r t).2
    rw [Store.zero?_of_keeps fun hvalue => hlater r t (s.keeps_zero? r t hvalue)]
    intro r
    rfl

theorem saturates_initial (r : ResolverId) (t : ValueType) :
    Saturates fun _ : ι => (initial r t : Task ε _) :=
  (saturates_zero? r t).bind (saturates_of_quiet fun _ => quiet_pure _)

theorem saturates_mapM {f : κ → Task ε α} (h : ∀ k, Saturates fun _ : ι => f k) (ks : List κ) :
    Saturates fun _ : ι => ks.mapM f := by
  induction ks with
  | nil =>
    rw [List.mapM_nil]
    exact saturates_of_quiet fun _ => quiet_pure _
  | cons k ks ih =>
    rw [List.mapM_cons]
    refine (h k).bind ?_
    exact (ih.comp Prod.fst).bind (saturates_of_quiet fun _ => quiet_pure _)

end Task

/-! ### The machine -/

namespace Machine

/-- Only two moves ask for zero values: an initialisation, and a call by what it calls. -/
theorem Frame.quiet_perform (c : Context) (f : Frame) (offset : Nat) {m : Move Link}
    (hinit : ∀ t, m ≠ .init t) (hcall : ∀ callee, m ≠ .call callee) :
    (f.perform c offset m).Quiet := by
  refine (f.acts_perform c offset m).quiet (fun r t hask => hinit t hask.2) ?_
  rintro _ _ ⟨hmove, -, -⟩
  exact absurd hmove (hcall _)

theorem Frame.saturates_call (offset : Nat) {callee : Link} (h : Saturates callee.call) :
    Saturates fun f : Frame => f.call offset callee := by
  refine (saturates_of_quiet fun _ => quiet_ofExcept _).bind ?_
  refine (saturates_of_quiet fun _ => quiet_ofExcept _).bind ?_
  exact (h.comp Prod.snd).bind (saturates_of_quiet fun _ => quiet_pure _)

/-- An instruction saturates, on all frames, if its callee does. -/
theorem Frame.saturates_perform (c : Context) (offset : Nat) {m : Move Link}
    (h : ∀ callee, m = .call callee → Saturates callee.call) :
    Saturates fun f : Frame => f.perform c offset m := by
  cases m with
  | init t =>
    refine (saturates_of_quiet fun _ => quiet_ofExcept _).bind ?_
    exact (saturates_initial c.resolver t).bind
      ((saturates_of_quiet fun _ => quiet_ofExcept _).map _)
  | call callee => exact (Frame.saturates_call offset (h callee rfl)).map _
  | _ => exact saturates_of_quiet fun f => f.quiet_perform c offset (by simp) (by simp)

/-- Runs of the same code saturate if its callees do: a run that has come to a return has carried out
every instruction that another run can come to. -/
theorem saturates_steps (c : Context) {code : List (Placed Link)}
    (h : ∀ p ∈ code, ∀ callee, p.instruction.move = .call callee → Saturates callee.call) :
    Saturates (steps c code) := by
  induction code with
  | nil => exact saturates_of_quiet fun _ => quiet_pure _
  | cons p ps ih =>
    have hstep := Frame.saturates_perform c p.offset (h p (List.mem_cons_self ..))
    have hrest := ih fun q hq => h q (List.mem_cons_of_mem _ hq)
    simp only [← Frame.step_eq_perform] at hstep
    refine hstep.bind_of_results ?_ ?_
    · intro f progress s hprogress
      cases progress with
      | next f' => exact hrest.grows f'
      | done v => exact (quiet_pure _).grows
    · intro f s progress s' hfirst last s₁ hrun f' t progress' t' hother hlater
      cases progress' with
      | done v => exact quiet_pure _ t'
      | next g' =>
        cases progress with
        | next g => exact hrest.quiet g s' last s₁ hrun g' t' hlater
        | done v =>
          -- The earlier run ended here with a return, so that the other run does not go on either.
          rw [Frame.step_eq_perform] at hfirst hother
          have hret := Frame.move_of_done (congrArg Prod.fst hfirst)
          rw [hret] at hother
          exact absurd (congrArg Prod.fst hother) Frame.not_next_of_ret

theorem saturates_execute (c : Context) {code : List (Placed Link)} (locals : List ValueType)
    (h : ∀ p ∈ code, ∀ callee, p.instruction.move = .call callee → Saturates callee.call) :
    Saturates (execute c code locals) := by
  refine (saturates_mapM (saturates_initial c.resolver) locals).bind ?_
  refine ((saturates_steps c h).comp fun p : List Value × List Value => ⟨p.1, p.2, []⟩).bind ?_
  refine saturates_of_quiet ?_
  rintro ⟨_, progress⟩
  cases progress with
  | next f => exact quiet_throw _
  | done v => exact quiet_pure _

end Machine

/-! ### Calls -/

/-- The calls of a procedure saturate. -/
theorem Procedure.saturates_invoke (p : Procedure) : Saturates p.invoke := by
  induction p using Procedure.induction with
  | host id name signature function =>
    refine (saturates_of_quiet fun args => quiet_ofExcept _).bind ?_
    exact saturates_of_quiet fun _ => quiet_ofExcept _
  | generated header signature body ih =>
    -- The callees in the code come from the body, so that the induction hypothesis is about them.
    have hexecute : ∀ code, (linkBody body).decode = .ok code → Saturates (Machine.execute
        ⟨header.name, signature.result, header.resolver⟩ code body.locals) := by
      intro code hdecode
      apply Machine.saturates_execute
      intro p hp link hmove
      obtain ⟨callee, hcallee, rfl⟩ :=
        exists_callee_of_decode hdecode hp (Instruction.operand_of_move hmove)
      cases callee with
      | procedure target => exact ih target hcallee
      | wrapper t => exact saturates_of_quiet fun args => quiet_ofExcept _
    have hgives := gives_decode header.id (linkBody body)
    refine (saturates_of_quiet fun args => quiet_ofExcept _).bind ?_
    -- All calls run the same instructions, whatever the cell has been filled with.
    refine (saturates_of_quiet fun _ => quiet_decode _ _).bind_of_results ?_ ?_
    · intro i code s hcode
      exact (hexecute code ((hgives s).symm.trans hcode)).grows i.2
    · intro i s code s' hcode v s₁ hrun j t code' t' hcode' hlater
      have hdecode := (hgives s).symm.trans (congrArg Prod.fst hcode)
      cases hdecode.symm.trans ((hgives t).symm.trans (congrArg Prod.fst hcode'))
      exact (hexecute code hdecode).quiet i.2 s' v s₁ hrun j.2 t' hlater

/-! ### Histories -/

/-- No operation makes a resolver forget. -/
theorem Operation.within_perform (o : Operation) (s : Store) : s.Within (o.perform s).2 := by
  cases o with
  | zeroValue resolver type => exact s.within_zero? resolver type
  | adapt header supplied target filling =>
    exact (asks_adapt header supplied target filling).grows (fun _ hnone => hnone.elim) s
  | bindAt header target bindings start =>
    exact (asks_bindAt header target bindings start).grows (fun _ hnone => hnone.elim) s
  | listing procedure => exact procedure.acts_listing.grows (fun _ h => h.quiet.grows) s
  | invoke procedure args => exact procedure.saturates_invoke.grows args s

theorem Operation.within_after (s : Store) (history : List Operation) :
    s.Within (after s history) := by
  induction history generalizing s with
  | nil => exact fun _ _ hkeeps => hkeeps
  | cons o history ih => exact (o.within_perform s).trans (ih (o.perform s).2)

/-! ### The main theorem -/

/-- A call whose body does not decode runs nothing. -/
theorem Procedure.sameCaches_invoke_of_decode {header : Header} {signature : Signature}
    {body : Body Callee} {e : RunError} (h : body.decode = .error e) (args : List Value)
    (s : Store) :
    s.SameCaches (((Procedure.generated header signature body).invoke args).runOn s).2 := by
  have hlinked : (linkBody body).decode = .error e := by
    rw [linkBody_eq, Body.decode_map, h]
    rfl
  have hgives := gives_decode header.id (linkBody body) s
  have hquiet := quiet_decode header.id (linkBody body) s
  rw [hlinked] at hgives
  rw [Procedure.invoke, runOn_bind, runOn_ofExcept]
  cases signature.receive header.name args with
  | error e' => exact fun r => rfl
  | ok received =>
    show s.SameCaches (runOn (_ >>= _) s).2
    rw [runOn_bind]
    rcases hrun : (Task.decode header.id (linkBody body)).runOn s with ⟨e' | code, s'⟩
    · rw [hrun] at hquiet
      exact hquiet
    · rw [hrun] at hgives
      cases hgives

open Operation

/-- **Zero values are constructed once.** After a call of a procedure that has returned, and whatever
else has happened since, no call of it changes the cache of any resolver. Adapting never changes one,
and neither does a call whose arguments are refused or whose body does not decode. -/
theorem invoke_saturates (g : Procedure) :
    (∀ s args v s', (g.invoke args).runOn s = (.ok v, s') → ∀ history args',
      (after s' history).SameCaches ((g.invoke args').runOn (after s' history)).2) ∧
    (∀ header supplied target filling (s : Store),
      s.SameCaches ((adapt header supplied target filling).runOn s).2) ∧
    (∀ args e, g.signature.receive g.name args = .error e → ∀ s : Store,
      s.SameCaches ((g.invoke args).runOn s).2) ∧
    ∀ body e, g.body? = some body → body.decode = .error e → ∀ args (s : Store),
      s.SameCaches ((g.invoke args).runOn s).2 := by
  refine ⟨?_, ?_, ?_, ?_⟩
  · intro s args v s' hreturned history args'
    exact g.saturates_invoke.quiet args s v s' hreturned args' _ (within_after s' history)
  · intro header supplied target filling
    exact (asks_adapt header supplied target filling).quiet (by simp) fun _ hnone => hnone.elim
  · intro args e hrefused s r
    rw [Procedure.runOn_invoke_refused hrefused]
  · intro body e hbody hdecode args s
    cases g with
    | host id name signature function => cases hbody
    | generated header signature body =>
      cases hbody
      exact Procedure.sameCaches_invoke_of_decode hdecode args s

/-- The body of `g` initialises a local through its address and hands its argument to `inner`, which has
a local of its own and another resolver. After a call that has returned, and one more request for a
zero value, a call with an argument that `inner` does not take fails and changes no cache. -/
theorem invoke_saturates_nested :
    ∃ inner g s', inner = Procedure.generated ⟨2, "inner", 7⟩ ⟨[.ofType .i32], .i32⟩
        ⟨[0x02, 0x2A], [.i64], ⟨[], [], []⟩⟩ ∧
      g = Procedure.generated ⟨3, "g", 5⟩ ⟨[.ofType .object], .i32⟩
        ⟨[0x12, 0x00, 0xFE, 0x15, 0x01, 0x00, 0x00, 0x1B, 0x02, 0x28, 0x01, 0x00, 0x00, 0x0A, 0x2A],
          [.i16], ⟨[], [.procedure inner], [.i16]⟩⟩ ∧
      (g.invoke [.i32 1]).runOn .empty = (.ok (.i32 1), s') ∧
      (s'.cache 5).types = [.i16] ∧ (s'.cache 7).types = [.i64] ∧
      ((g.invoke [.str "a"]).runOn (after s' [.zeroValue 7 .f64])).1
        = .error (.argumentType "I32 inner(I32)" 0 .i32 "String") ∧
      (after s' [.zeroValue 7 .f64]).SameCaches
        ((g.invoke [.str "a"]).runOn (after s' [.zeroValue 7 .f64])).2 := by
  obtain ⟨inner, hinner⟩ : ∃ inner, inner = Procedure.generated ⟨2, "inner", 7⟩
    ⟨[.ofType .i32], .i32⟩ ⟨[0x02, 0x2A], [.i64], ⟨[], [], []⟩⟩ := ⟨_, rfl⟩
  obtain ⟨g, hg⟩ : ∃ g, g = Procedure.generated ⟨3, "g", 5⟩ ⟨[.ofType .object], .i32⟩
    ⟨[0x12, 0x00, 0xFE, 0x15, 0x01, 0x00, 0x00, 0x1B, 0x02, 0x28, 0x01, 0x00, 0x00, 0x0A, 0x2A],
      [.i16], ⟨[], [.procedure inner], [.i16]⟩⟩ := ⟨_, rfl⟩
  have hreturned : ((g.invoke [.i32 1]).runOn .empty).1 = .ok (.i32 1) := by
    subst hg hinner
    cbv
  refine ⟨inner, g, _, hinner, hg, Prod.ext hreturned rfl, ?_, ?_, ?_,
    (invoke_saturates g).1 .empty [.i32 1] (.i32 1) _ (Prod.ext hreturned rfl) _ _⟩
  all_goals
    subst hg hinner
    cbv

end CallAdapter
