import CallAdapter.Proofs.PartialApplication

/-!
# Binding in two steps is binding in one

A procedure that was made by `bindAt` can be bound again. The second window counts the parameters that
the first one has kept. `Binding.merge` puts the two lists of bindings together, and the main theorem,
`bindAt_bindAt`, says that binding twice and binding once with the merged list give procedures that
cannot be told apart by calling them.

Two facts about `Binds`, which is what `bindAt` promises, carry the result: a procedure is determined by
what it binds (`Binds.unique`), and what is bound in two steps is bound in one (`Binds.trans`). Values go
through two rows of slots instead of one, and results through two deliveries; what has been through once
is left alone the second time.
-/

namespace CallAdapter

open Machine Value

/-! ### Merged bindings -/

/-- Bindings for all parameters of a target, from bindings for them and bindings for those among them
that are kept. What the first list does not bind is bound as the second one says. -/
def Binding.merge : List Binding → List Binding → List Binding
  | [], _ => []
  | .keep :: first, b :: second => b :: merge first second
  | .keep :: first, [] => .keep :: merge first []
  | b :: first, second => b :: merge first second

theorem Binding.merge_of_ne_keep {b : Binding} (hb : b ≠ .keep) (first second : List Binding) :
    merge (b :: first) second = b :: merge first second := by
  cases b with
  | keep => exact absurd rfl hb
  | fixed | default => simp [merge]

theorem Binding.length_merge (first second : List Binding) :
    (merge first second).length = first.length := by
  fun_induction merge first second with
  | case1 => rfl
  | case2 _ _ _ ih | case3 _ ih | case4 _ _ _ _ _ ih => exact congrArg (· + 1) ih

theorem Binding.length_window {bindings : List Binding} {start n : Nat}
    (h : start + bindings.length ≤ n) : (window bindings start n).length = n := by
  simp only [window, List.length_append, List.length_replicate]
  omega

/-- A window as wide as the target is the list itself. -/
theorem Binding.window_full {bindings : List Binding} {n : Nat} (h : bindings.length = n) :
    window bindings 0 n = bindings := by
  simp [window, h]

theorem keptParams_of_ne_keep {b : Binding} (hb : b ≠ .keep) (p : Parameter)
    (roles : List (Parameter × Binding)) : keptParams ((p, b) :: roles) = keptParams roles := by
  cases b with
  | keep => exact absurd rfl hb
  | fixed | default => rfl

theorem length_keptParams_le (roles : List (Parameter × Binding)) :
    (keptParams roles).length ≤ roles.length := by
  fun_induction keptParams roles with
  | case1 => exact Nat.le_refl _
  | case2 p roles ih => exact Nat.succ_le_succ ih
  | case3 role roles _ ih => exact Nat.le_succ_of_le ih

theorem keptParams_merge {params : List Parameter} {first second : List Binding}
    (hlen : second.length = (keptParams (params.zip first)).length) :
    keptParams (params.zip (Binding.merge first second))
      = keptParams ((keptParams (params.zip first)).zip second) := by
  induction params generalizing first second with
  | nil => rfl
  | cons p params ih =>
    cases first with
    | nil => rfl
    | cons b first =>
      by_cases hb : b = .keep
      · -- The second list of bindings has an entry for each parameter that the first one keeps.
        subst hb
        cases second with
        | nil => cases hlen
        | cons c second =>
          have hrest := ih (Nat.succ.inj hlen)
          show keptParams ((p, c) :: params.zip (Binding.merge first second))
            = keptParams ((p, c) :: (keptParams (params.zip first)).zip second)
          by_cases hc : c = .keep
          · subst hc
            exact congrArg (p :: ·) hrest
          · rw [keptParams_of_ne_keep hc, keptParams_of_ne_keep hc, hrest]
      · rw [List.zip_cons_cons, keptParams_of_ne_keep hb] at hlen ⊢
        rw [Binding.merge_of_ne_keep hb, List.zip_cons_cons, keptParams_of_ne_keep hb]
        exact ih hlen

/-! ### What arrives at the target -/

namespace Passes

variable {roles : List (Parameter × Binding)} {received full full' : List Value}

/-- What arrives is determined by what was received. -/
theorem eq (h : Passes roles received full) (h' : Passes roles received full') : full = full' := by
  induction h generalizing full' with
  | nil =>
    cases h'
    rfl
  | keep _ ih =>
    cases h' with
    | keep h' => rw [ih h']
    | bound hresolves => cases hresolves
  | bound hresolves _ _ ih =>
    cases h' with
    | keep => cases hresolves
    | bound hresolves' _ h' => rw [hresolves.eq hresolves', ih h']

theorem fits (h : Passes roles received full)
    (hfits : List.Forall₂ (fun v p => v.Fits p.type) received (keptParams roles)) :
    List.Forall₂ (fun v p => v.Fits p.type) full (roles.map Prod.fst) := by
  induction h with
  | nil => exact .nil
  | keep _ ih =>
    cases hfits with
    | cons hv hfits => exact .cons hv (ih hfits)
  | bound hresolves hloads _ ih =>
    rw [keptParams_of_ne_keep hresolves.ne_keep] at hfits
    exact .cons (fits_of_asSlot? hloads.asSlot?_loadedValue) (ih hfits)

/-- Arguments that arrive through two procedures arrive through one with the merged bindings. -/
theorem merge {params : List Parameter} {first second : List Binding}
    {received middle full : List Value}
    (hlen : second.length = (keptParams (params.zip first)).length)
    (hsecond : Passes ((keptParams (params.zip first)).zip second) received middle)
    (hfirst : Passes (params.zip first) middle full) :
    Passes (params.zip (Binding.merge first second)) received full := by
  induction params generalizing first second received middle full with
  | nil =>
    cases hfirst
    cases hsecond
    exact .nil
  | cons p params ih =>
    cases first with
    | nil =>
      cases hfirst
      cases hsecond
      exact .nil
    | cons b first =>
      by_cases hb : b = .keep
      · -- The second procedure decides where the value of this parameter comes from.
        subst hb
        rw [List.zip_cons_cons] at hfirst
        cases second with
        | nil => cases hlen
        | cons c second =>
          cases hfirst with
          | bound hresolves => cases hresolves
          | keep hfirst =>
            have hsecond' : Passes ((p, c) :: (keptParams (params.zip first)).zip second) received _ :=
              hsecond
            show Passes ((p, c) :: params.zip (Binding.merge first second)) received _
            cases hsecond' with
            | keep hsecond => exact .keep (ih (Nat.succ.inj hlen) hsecond hfirst)
            | bound hresolves hloads hsecond =>
              exact .bound hresolves hloads (ih (Nat.succ.inj hlen) hsecond hfirst)
      · -- The value is bound by the first procedure; the second one does not see the parameter.
        rw [List.zip_cons_cons, keptParams_of_ne_keep hb] at hlen hsecond
        rw [Binding.merge_of_ne_keep hb, List.zip_cons_cons]
        rw [List.zip_cons_cons] at hfirst
        cases hfirst with
        | keep => exact absurd rfl hb
        | bound hresolves hloads hfirst => exact .bound hresolves hloads (ih hlen hsecond hfirst)

end Passes

/-! ### Results -/

theorem delivered_of_delivered {procedure : String} {t : ValueType} {r w : Value}
    (h : delivered procedure t r = .ok w) : delivered procedure t w = .ok w := by
  unfold delivered at h ⊢
  split at h
  · next hunit =>
    rw [if_pos hunit]
    exact h
  · next hunit =>
    rw [if_neg hunit]
    split at h
    · next w' hw' =>
      -- What comes out of a slot fits it, and what fits is left alone.
      cases h
      rw [(fits_of_asSlot? hw').asSlot?_eq]
    · cases h

/-- Delivering a second time changes nothing. -/
theorem bind_delivered (x : Except RunError Value) (procedure : String) (t : ValueType) :
    (x >>= delivered procedure t) >>= delivered procedure t = x >>= delivered procedure t := by
  cases x with
  | error e => rfl
  | ok r =>
    show delivered procedure t r >>= delivered procedure t = delivered procedure t r
    cases h : delivered procedure t r with
    | error e => rfl
    | ok w => exact delivered_of_delivered h

/-! ### What is bound -/

namespace Binds

variable {name : String} {target g g' : Procedure} {roles : List (Parameter × Binding)}

theorem unique (h : Binds name target roles g) (h' : Binds name target roles g') :
    g.signature = g'.signature ∧
      ∀ args s s', ((g.invoke args).runOn s).1 = ((g'.invoke args).runOn s').1 := by
  have hsignature := h.signature_eq.trans h'.signature_eq.symm
  refine ⟨hsignature, ?_⟩
  intro args s s'
  cases hreceive : g.signature.receive name args with
  | error e =>
    -- Both receive arguments by the same signature, so both refuse them for the same reason.
    rw [h.refused args e hreceive s, h'.refused args e (hsignature ▸ hreceive) s']
  | ok received =>
    obtain ⟨full, hfull, hinvoke⟩ := h.passed args received hreceive
    obtain ⟨full', hfull', hinvoke'⟩ := h'.passed args received (hsignature ▸ hreceive)
    obtain rfl := hfull.eq hfull'
    rw [hinvoke s, hinvoke' s']

/-- What is bound in two steps is bound in one. -/
theorem trans {first second : List Binding}
    (hfirst : Binds name target (target.signature.params.zip first) g)
    (hsecond : Binds name g (g.signature.params.zip second) g')
    (hkept : second.length = g.signature.arity) :
    Binds name target (target.signature.params.zip (Binding.merge first second)) g' := by
  have hparams : g.signature.params = keptParams (target.signature.params.zip first) := by
    rw [hfirst.signature_eq]
  have hresult : g.signature.result = target.signature.result := by rw [hfirst.signature_eq]
  have hlen : second.length = (keptParams (target.signature.params.zip first)).length := by
    rw [hkept, Signature.arity, hparams]
  refine ⟨hsecond.name_eq, ?_, hsecond.refused, ?_⟩
  · rw [hsecond.signature_eq, hparams, hresult, keptParams_merge hlen]
  · intro args received hreceive
    obtain ⟨middle, hmiddle, hinvoke⟩ := hsecond.passed args received hreceive
    -- What arrives at the first procedure fits its parameters, so it is received as it is.
    have hfits : List.Forall₂ (fun v p => v.Fits p.type) middle g.signature.params := by
      have hreceived := fits_of_receive hreceive
      rw [hsecond.signature_eq] at hreceived
      have := hmiddle.fits hreceived
      rwa [List.map_fst_zip (by rw [hkept, Signature.arity])] at this
    obtain ⟨full, hfull, hcall⟩ := hfirst.passed middle middle (receive_of_fits hfits)
    rw [hparams] at hmiddle
    refine ⟨full, .merge hlen hmiddle hfull, ?_⟩
    rw [hcall .empty, hresult, bind_delivered] at hinvoke
    exact hinvoke

end Binds

/-! ### The main theorem -/

/-- **Adaptations compose.** A target is bound, and the result is bound again under the same name. If
binding the target at once with the merged bindings succeeds as well, the outcome has the same
signature, and on all arguments the same value or the same error. -/
theorem bindAt_bindAt (name : String) (id₁ id₂ id : ProcedureId) (resolver : ResolverId)
    (target g₁ g₂ g : Procedure) (bindings₁ bindings₂ : List Binding) (start₁ start₂ : Nat)
    (s₁ s₂ s : Store) (harity : target.signature.arity ≤ 2 ^ 24 - 2)
    (h₁ : ((bindAt ⟨id₁, name, resolver⟩ target bindings₁ start₁).runOn s₁).1 = .ok g₁)
    (h₂ : ((bindAt ⟨id₂, name, resolver⟩ g₁ bindings₂ start₂).runOn s₂).1 = .ok g₂)
    (h : ((bindAt ⟨id, name, resolver⟩ target
      (Binding.merge (Binding.window bindings₁ start₁ target.signature.arity)
        (Binding.window bindings₂ start₂ g₁.signature.arity)) 0).runOn s).1 = .ok g) :
    g₂.signature = g.signature ∧
      ∀ args s s', ((g₂.invoke args).runOn s).1 = ((g.invoke args).runOn s').1 := by
  have hlimit : target.signature.arity + 1 < Token.rowLimit := by
    rw [Token.rowLimit]
    omega
  have hbinds₁ := binds_of_bindAt hlimit h₁
  have harity₁ : g₁.signature.arity ≤ target.signature.arity := by
    rw [hbinds₁.signature_eq]
    refine (length_keptParams_le _).trans ?_
    rw [roles, List.length_zip]
    exact min_le_left _ _
  have hbinds₂ := binds_of_bindAt (Nat.lt_of_le_of_lt (Nat.succ_le_succ harity₁) hlimit) h₂
  have hwindow₁ := Binding.length_window (bindAt_eq_ok h₁).1
  have hwindow₂ := Binding.length_window (bindAt_eq_ok h₂).1
  have hboth := hbinds₁.trans hbinds₂ hwindow₂
  have honce := binds_of_bindAt hlimit h
  rw [roles, Binding.window_full ((Binding.length_merge _ _).trans hwindow₁)] at honce
  exact hboth.unique honce

/-- The first step binds a wrapper of the top type, the second one the parameter after it, which has
become the second parameter. -/
theorem bindAt_bindAt_neighbours :
    ∃ target g₁ g₂ g, target = Procedure.host 1 "f" ⟨[.ofType .i32, .ofType (.nullable .object),
        .ofType .str, .ofType .bool], .nullable .object⟩ (fun args => .ok (args.getD 1 .unit)) ∧
      ((bindAt ⟨2, "g", 0⟩ target [.fixed (.u8 200)] 1).runOn .empty).1 = .ok g₁ ∧
      ((bindAt ⟨3, "g", 0⟩ g₁ [.default .type] 1).runOn .empty).1 = .ok g₂ ∧
      ((bindAt ⟨4, "g", 0⟩ target [.keep, .fixed (.u8 200), .default .type, .keep] 0).runOn
        .empty).1 = .ok g ∧
      g.signature.types = [.i32, .bool] ∧ g₂.signature = g.signature ∧
      ∀ args s s', ((g₂.invoke args).runOn s).1 = ((g.invoke args).runOn s').1 := by
  obtain ⟨target, htarget⟩ : ∃ target, target = Procedure.host 1 "f" ⟨[.ofType .i32,
    .ofType (.nullable .object), .ofType .str, .ofType .bool], .nullable .object⟩
    (fun args => .ok (args.getD 1 .unit)) := ⟨_, rfl⟩
  obtain ⟨g₁, h₁⟩ : ∃ g₁, ((bindAt ⟨2, "g", 0⟩ target [.fixed (.u8 200)] 1).runOn .empty).1
    = .ok g₁ := by
    subst htarget
    exact ⟨_, rfl⟩
  obtain ⟨g₂, h₂⟩ : ∃ g₂, ((bindAt ⟨3, "g", 0⟩ g₁ [.default .type] 1).runOn .empty).1
    = .ok g₂ := by
    subst htarget
    cases h₁
    exact ⟨_, rfl⟩
  obtain ⟨g, h⟩ : ∃ g, ((bindAt ⟨4, "g", 0⟩ target
    [.keep, .fixed (.u8 200), .default .type, .keep] 0).runOn .empty).1 = .ok g := by
    subst htarget
    exact ⟨_, rfl⟩
  have hmerge : Binding.merge (Binding.window [.fixed (.u8 200)] 1 target.signature.arity)
      (Binding.window [.default .type] 1 g₁.signature.arity)
      = [.keep, .fixed (.u8 200), .default .type, .keep] := by
    subst htarget
    cases h₁
    rfl
  have harity : target.signature.arity ≤ 2 ^ 24 - 2 := by
    subst htarget
    decide
  have htypes : g.signature.types = [.i32, .bool] := by
    subst htarget
    cases h
    rfl
  refine ⟨target, g₁, g₂, g, htarget, h₁, h₂, h, htypes, ?_⟩
  rw [← hmerge] at h
  exact bindAt_bindAt "g" 2 3 4 0 target g₁ g₂ g _ _ 1 1 _ _ _ harity h₁ h₂ h

end CallAdapter
