import CallAdapter.Proofs.Adaptation
import CallAdapter.Proofs.Constants
import CallAdapter.Proofs.PartialApplication

/-!
# Adapting and binding agree

A target's leading parameters can be kept and the others filled in two ways: `adapt` takes the values
as they are given, and `bindAt` converts each of them to the type of its parameter first. The main
theorem, `adapt_bindAt_agree`, says that the two make the same procedure, down to the bytes of its
code and the rows of its tables.

What conversion does to a value is undone by loading it: `loadConstant_of_convert` says that the
code for the converted value is the code for the value itself, for every value that can be loaded.
Conversion can fail for absent values only (`Loads.exists_convert`).
-/

namespace CallAdapter

open Machine Value

/-! ### Loading a converted value -/

section Conversion

variable {v w : Value} {t : ValueType} {locals : Locals}
  {out : List (Instruction Callee) × Locals}

theorem convert_of_isInstance (h : v.isInstance t = true) : v.convert t = .ok v := by
  cases t with
  | nullable t => rw [convert, if_pos h]
  | _ => cases v <;> simp [convert, convertPlain, h]

/-- What is converted from nothing is nothing. -/
theorem isAbsent_of_convert (hv : v.isAbsent = true) (h : v.convert t = .ok w) :
    w.isAbsent = true := by
  by_cases hinst : v.isInstance t = true
  · rw [convert_of_isInstance hinst] at h
    cases h
    exact hv
  · cases t with
    | nullable t =>
      rw [convert, if_neg hinst, if_pos hv] at h
      cases h
      rfl
    | str | object | reference =>
      cases v <;> cases hv <;>
        simp [convert, convertPlain, isInstance, convertBare?, isAbsent] at h <;> cases h <;> rfl
    | _ =>
      -- The types without an absent value take nothing that is absent.
      cases v <;> cases hv <;>
        simp [convert, convertPlain, isInstance, convertBare?, truth?, integral?, real?] at h

theorem loadConstant_absent (hv : v.isAbsent = true) (t : ValueType) (locals : Locals) :
    loadConstant (some v) t locals = loadConstant none t locals := by
  have hnone : (some v).filter (fun v => !v.isAbsent) = none := Option.filter_some_neg (by simp [hv])
  have hwrite : writeConstant (some v) t = writeConstant none t := by
    unfold writeConstant
    rw [hnone]
    rfl
  unfold loadConstant
  rw [hwrite]

theorem isAbsent_of_isBare (h : v.isBare = true) : v.isAbsent = false := by
  cases v with
  | null | empty | present => cases h
  | _ => rfl

theorem unwrap_of_isBare (h : v.isBare = true) : v.unwrap = v := by
  cases v with
  | null | empty | present => cases h
  | _ => rfl

/-- A wrapper makes no difference where a wrapper is made anyway. -/
theorem loadConstant_present (hv : v.isBare = true) (u : ValueType) (locals : Locals) :
    loadConstant (some (.present v)) (.nullable u) locals
      = loadConstant (some v) (.nullable u) locals := by
  rw [loadConstant_eq, loadConstant_eq, runOn_writeConstant_wrapped (isAbsent_of_isBare hv),
    runOn_writeConstant_wrapped (w := .present v) rfl, unwrap_of_isBare hv]
  rfl

/-- A bare value is converted to a wrapper around it if it is an instance of the inner type. -/
theorem convert_nullable {u : ValueType} (hv : v.isBare = true) (h : v.isInstance u = true) :
    v.convert (.nullable u) = .ok (.present v) := by
  rw [convert, if_neg (by simp [isInstance_nullable_of_isBare hv]),
    if_neg (by simp [isAbsent_of_isBare hv]), unwrap_of_isBare hv, convert_of_isInstance h]
  rfl

/-- A value that can be loaded is, if it is there, an instance of the type already, or a bare value
for a wrapper. -/
theorem LoadedBy.cases_of_present (h : LoadedBy t locals (some v) out) (hv : v.isAbsent = false) :
    v.isInstance t = true ∨ ∃ u, t = .nullable u ∧ v.isBare = true ∧ v.isInstance u = true := by
  cases h with
  | absent hnone =>
    rw [filter_present hv] at hnone
    cases hnone
  | plain _ _ hinst _ => exact .inl hinst
  | wrapped _ ht hinst _ =>
    subst ht
    rcases bare_or_present hv with ⟨hbare, hunwrap⟩ | ⟨y, rfl⟩
    · rw [hunwrap] at hinst
      exact .inr ⟨_, rfl, hbare, hinst⟩
    · exact .inl hinst

/-- The code for a value and for what it is converted to is the same. -/
theorem loadConstant_of_convert (hconvert : v.convert t = .ok w)
    (h : loadConstant (some v) t locals = .ok out) : loadConstant (some w) t locals = .ok out := by
  cases hv : v.isAbsent with
  | true => rwa [loadConstant_absent (isAbsent_of_convert hv hconvert), ← loadConstant_absent hv]
  | false =>
    rcases (loadedBy_of_loadConstant h).2.cases_of_present hv with hinst | ⟨u, rfl, hbare, hinst⟩
    · rw [convert_of_isInstance hinst] at hconvert
      cases hconvert
      exact h
    · rw [convert_nullable hbare hinst] at hconvert
      cases hconvert
      rwa [loadConstant_present hbare]

/-- A value that can be loaded can be converted if it is there. -/
theorem Loads.exists_convert (h : Loads (some v) t) (hv : v.isAbsent = false) :
    ∃ w, v.convert t = .ok w := by
  obtain ⟨locals, out, h⟩ := h
  rcases (loadedBy_of_loadConstant h).2.cases_of_present hv with hinst | ⟨u, rfl, hbare, hinst⟩
  · exact ⟨v, convert_of_isInstance hinst⟩
  · exact ⟨.present v, convert_nullable hbare hinst⟩

end Conversion

/-! ### The bindings of a filling -/

/-- The part of a signature with its first `k` parameters. -/
def Signature.leading (s : Signature) (k : Nat) : Signature := ⟨s.params.take k, s.result⟩

/-- Bindings for `n` parameters that do what a filling by position does: the first ones are fixed to
the given values, and the others take their declared defaults. -/
def Binding.filling (values : List Value) (n : Nat) : List Binding :=
  values.map .fixed ++ List.replicate (n - values.length) (.default .parameter)

/-- The binding sets the parameter to this value, which converts if it is given. -/
inductive Binding.Supplies (p : Parameter) : Binding → Value → Prop
  | fixed {v w : Value} : v.convert p.type = .ok w → Supplies p (.fixed v) v
  | parameter {v : Value} : p.default = some v → Supplies p (.default .parameter) v

theorem Binding.length_filling {values : List Value} {n : Nat} (h : values.length ≤ n) :
    (filling values n).length = n := by
  simp only [filling, List.length_append, List.length_map, List.length_replicate]
  omega

theorem fillByPosition_of_values {position : Nat} {trailing : List Parameter}
    {given values : List Value}
    (h : (Filling.positional given).values position trailing = .ok values) :
    fillByPosition position trailing given = .ok values := by
  rw [Filling.values] at h
  split at h
  · cases h
  · exact h

theorem mem_zip_filling {p : Parameter} {v : Value} {trailing : List Parameter}
    {values : List Value} (h : (p, v) ∈ trailing.zip values) (n : Nat) :
    (p, .fixed v) ∈ trailing.zip (Binding.filling values n) := by
  obtain ⟨i, hi⟩ := List.mem_iff_getElem?.mp h
  obtain ⟨hp, hv⟩ := List.getElem?_zip_eq_some.mp hi
  have hfixed : (Binding.filling values n)[i]? = some (.fixed v) := by
    rw [Binding.filling, List.getElem?_append_left, List.getElem?_map, hv]
    · rfl
    · rw [List.length_map]
      exact (List.getElem?_eq_some_iff.mp hv).1
  exact List.mem_of_getElem? (List.getElem?_zip_eq_some.mpr ⟨hp, hfixed⟩)

/-- If the given values convert, the bindings supply the values of the filling. -/
theorem supplies_of_fillByPosition {position : Nat} {trailing : List Parameter}
    {given values : List Value} (h : fillByPosition position trailing given = .ok values)
    (hconvert : ∀ p v, (p, v) ∈ trailing.zip given → ∃ w, v.convert p.type = .ok w) :
    List.Forall₂ (fun role v => role.2.Supplies role.1 v)
      (trailing.zip (Binding.filling given trailing.length)) values := by
  induction trailing generalizing position given values with
  | nil =>
    cases h
    exact .nil
  | cons p trailing ih =>
    cases given with
    | nil =>
      obtain ⟨v, hv, h⟩ := exists_of_bind_eq_ok h
      obtain ⟨rest, hrest, h⟩ := exists_of_bind_eq_ok h
      cases h
      exact .cons (.parameter (declaredDefault_eq_ok hv)) (ih hrest (by simp))
    | cons v given =>
      obtain ⟨rest, hrest, rfl⟩ := exists_of_map_eq_ok h
      obtain ⟨w, hw⟩ := hconvert p v (by simp)
      have htail := ih hrest fun q u hmem => hconvert q u (by simp [hmem])
      rw [List.length_cons, Binding.filling, List.length_cons, Nat.add_sub_add_right]
      exact .cons (.fixed hw) htail

theorem loads_of_loadAll {locals : Locals} {pairs : List (Parameter × Value)}
    {out : List (Instruction Callee) × Locals} (h : loadAll locals pairs = .ok out)
    {p : Parameter} {v : Value} (hmem : (p, v) ∈ pairs) : Loads (some v) p.type := by
  induction pairs generalizing locals out with
  | nil => cases hmem
  | cons pair pairs ih =>
    obtain ⟨⟨head, mid⟩, hload, h⟩ := exists_of_bind_eq_ok h
    obtain ⟨⟨rest, last⟩, hrest, -⟩ := exists_of_bind_eq_ok h
    rcases List.mem_cons.mp hmem with rfl | hmem
    · exact ⟨locals, _, hload⟩
    · exact ih hrest hmem

/-- Every value that is given by position has been loaded. -/
theorem loads_of_adapt {header : Header} {supplied : Signature} {target g : Procedure}
    {vs : List Value} {s : Store}
    (h : ((adapt header supplied target (.positional vs)).runOn s).1 = .ok g) {p : Parameter}
    {v : Value} (hmem : (p, v) ∈ (target.signature.params.drop supplied.arity).zip vs) :
    Loads (some v) p.type := by
  obtain ⟨-, forwarded, values, code, locals, -, hvalues, hload, -⟩ := adapt_eq_ok h
  obtain ⟨i, hi⟩ := List.mem_iff_getElem?.mp hmem
  obtain ⟨hp, hv⟩ := List.getElem?_zip_eq_some.mp hi
  have hvalue := (filledBy_of_values hvalues).value_eq i p hp
  rw [Filling.given?, hv, Option.some_or] at hvalue
  exact loads_of_loadAll hload
    (List.mem_of_getElem? (List.getElem?_zip_eq_some.mpr ⟨hp, hvalue⟩))

/-! ### The two constructions -/

/-- Arranging parameters that are all supplied loads the values that are supplied. -/
theorem gives_arrange_supplied (resolver : ResolverId) (position kept : Nat)
    {roles : List (Parameter × Binding)} {values : List Value}
    (hsupplies : List.Forall₂ (fun role v => role.2.Supplies role.1 v) roles values)
    {locals locals' : Locals} {code : List (Instruction Callee)}
    (h : loadAll locals ((roles.map Prod.fst).zip values) = .ok (code, locals')) :
    (arrange resolver position kept locals roles).Gives (.ok ⟨code, locals', []⟩) := by
  induction hsupplies generalizing position locals code with
  | nil =>
    cases h
    exact Task.gives_pure _
  | @cons role v roles values hrole _ ih =>
    obtain ⟨p, b⟩ := role
    obtain ⟨⟨head, mid⟩, hload, h⟩ := exists_of_bind_eq_ok h
    obtain ⟨⟨rest, last⟩, hrest, h⟩ := exists_of_bind_eq_ok h
    cases h
    -- Either way, the value that is loaded has the same code as the one that is given.
    have hconstant : ∀ u, loadConstant u p.type locals = .ok (head, mid) →
        (arrangeConstant resolver position kept locals p u roles).Gives
          (.ok ⟨head ++ rest, locals', []⟩) := by
      intro u hu
      unfold arrangeConstant
      rw [hu]
      exact (Task.gives_ofExcept _).bind_ok ((ih _ hrest).bind_ok (Task.gives_pure _))
    cases hrole with
    | fixed hw =>
      unfold arrange
      rw [hw]
      exact (Task.gives_ofExcept _).bind_ok (hconstant _ (loadConstant_of_convert hw hload))
    | parameter hdefault =>
      have hgives : (p.defaultBy position resolver .parameter).Gives (.ok (some v)) := by
        rw [Parameter.defaultBy, Parameter.declaredDefault, hdefault]
        exact (Task.gives_ofExcept _).map _
      unfold arrange
      exact hgives.bind_ok (hconstant _ hload)

/-- Arranging parameters that are kept forwards them. -/
theorem gives_arrange_kept {resolver : ResolverId} (position : Nat) {kept : Nat} {locals : Locals}
    {params : List Parameter} {rest : List (Parameter × Binding)}
    {forwarded : List (Instruction Callee)} {a : Arrangement}
    (hforward : (List.range' kept params.length).mapM
      (fun index => (shortIndex .argument index).map Instruction.loadArgument) = .ok forwarded)
    (hrest : ∀ position kept, (arrange resolver position kept locals rest).Gives (.ok a)) :
    (arrange resolver position kept locals (params.map (·, .keep) ++ rest)).Gives
      (.ok ⟨forwarded ++ a.code, a.locals, params ++ a.params⟩) := by
  induction params generalizing position kept forwarded with
  | nil =>
    cases hforward
    exact hrest position kept
  | cons p params ih =>
    rw [List.length_cons, List.range'_succ, List.mapM_cons] at hforward
    obtain ⟨instruction, hload, hforward⟩ := exists_of_bind_eq_ok hforward
    obtain ⟨index, hindex, rfl⟩ := exists_of_map_eq_ok hload
    obtain ⟨more, hmore, hforward⟩ := exists_of_bind_eq_ok hforward
    cases hforward
    rw [List.map_cons, List.cons_append, arrange, hindex]
    exact (Task.gives_ofExcept _).bind_ok ((ih _ hmore).bind_ok (Task.gives_pure _))

/-- Every value that is fixed by a procedure that could be made converts. -/
theorem Sourced.converts {kept : Nat} {roles : List (Parameter × Binding)} {sources : List Source}
    (h : Sourced kept roles sources) {p : Parameter} {v : Value} (hmem : (p, .fixed v) ∈ roles) :
    ∃ w, v.convert p.type = .ok w := by
  induction h with
  | nil => cases hmem
  | keep _ _ ih =>
    rcases List.mem_cons.mp hmem with heq | hmem
    · cases heq
    · exact ih hmem
  | bound hresolves _ _ ih =>
    rcases List.mem_cons.mp hmem with heq | hmem
    · cases heq
      cases hresolves with
      | fixed hw => exact ⟨_, hw⟩
    · exact ih hmem

/-! ### The main theorem -/

theorem gives_assemble {header : Header} {params : List Parameter} {target : Procedure}
    {code : List (Instruction Callee)} {locals : Locals} {body : Body Callee}
    (h : Draft.finish ⟨adapterCode code target, locals⟩ = .ok body) :
    (assemble header params target code locals).Gives
      (.ok (.generated header ⟨params, target.signature.result⟩ body)) := by
  have hbody : (Task.ofExcept (Draft.finish ⟨adapterCode code target, locals⟩) : Build _).Gives
      (.ok body) := by
    rw [h]
    exact Task.gives_ofExcept _
  exact hbody.bind_ok ((Task.gives_update _).bind_ok (Task.gives_pure _))

theorem zip_replicate (params : List Parameter) (b : Binding) :
    params.zip (List.replicate params.length b) = params.map (·, b) := by
  induction params with
  | nil => rfl
  | cons p params ih =>
    rw [List.length_cons, List.replicate_succ, List.zip_cons_cons, ih, List.map_cons]

theorem Signature.arity_leading {s : Signature} {k : Nat} (h : k ≤ s.arity) :
    (s.leading k).arity = k := by
  show (s.params.take k).length = k
  rw [List.length_take]
  exact min_eq_left h

/-- The leading parameters are kept, and those behind them have the bindings of the window. -/
theorem roles_eq_append {target : Procedure} {bindings : List Binding} {k : Nat}
    (hk : k ≤ target.signature.arity) (h : bindings.length = target.signature.arity - k) :
    roles target bindings k = (target.signature.params.take k).map (·, .keep) ++
      (target.signature.params.drop k).zip bindings := by
  have hlen : (target.signature.params.take k).length = k := Signature.arity_leading hk
  have hwindow : Binding.window bindings k target.signature.arity
      = List.replicate k .keep ++ bindings := by
    simp [Binding.window, h]
  rw [roles, hwindow, ← zip_replicate, hlen]
  nth_rewrite 1 [← List.take_append_drop k target.signature.params]
  apply List.zip_append
  rw [hlen, List.length_replicate]

/-- If the given values convert, binding makes the procedure that adapting makes. -/
theorem gives_bindAt_of_adapt {header : Header} (header' : Header) {target g : Procedure} {k : Nat}
    {vs : List Value} {s : Store} (hk : k ≤ target.signature.arity)
    (hvs : vs.length ≤ target.signature.arity - k)
    (h : ((adapt header (target.signature.leading k) target (.positional vs)).runOn s).1 = .ok g)
    (hconvert : ∀ p v, (p, v) ∈ (target.signature.params.drop k).zip vs →
      ∃ w, v.convert p.type = .ok w) :
    ∃ body, g = .generated header (target.signature.leading k) body ∧
      (bindAt header' target (Binding.filling vs (target.signature.arity - k)) k).Gives
        (.ok (.generated header' (target.signature.leading k) body)) := by
  obtain ⟨-, forwarded, values, code, locals, hforward, hvalues, hload, hassemble⟩ := adapt_eq_ok h
  obtain ⟨body, hfinish, rfl⟩ := assemble_eq_ok hassemble
  have hlen : (target.signature.params.take k).length = k := Signature.arity_leading hk
  rw [Signature.arity_leading hk] at hforward hvalues hload
  -- The two kinds of parameters are arranged one after the other.
  rw [forwardAll, List.range_eq_range', ← hlen] at hforward
  have hbindings := Binding.length_filling hvs
  have hsupplies := supplies_of_fillByPosition (fillByPosition_of_values hvalues) hconvert
  rw [List.length_drop, ← Signature.arity] at hsupplies
  have hparams : ((target.signature.params.drop k).zip
      (Binding.filling vs (target.signature.arity - k))).map Prod.fst
      = target.signature.params.drop k := by
    apply List.map_fst_zip
    rw [List.length_drop, hbindings, Signature.arity]
  rw [← hparams] at hload
  have harrange := gives_arrange_kept 0 hforward fun position kept =>
    gives_arrange_supplied header'.resolver position kept hsupplies hload
  refine ⟨body, rfl, ?_⟩
  rw [bindAt_eq (by omega), roles_eq_append hk hbindings]
  refine harrange.bind_ok ?_
  rw [List.append_nil]
  exact gives_assemble hfinish

/-- **Adapting and binding agree.** Of a target the first `k` parameters are kept, the next ones are
given values and the others take their declared defaults. Adapting the target to the signature of
the kept parameters and binding the parameters behind them make procedures with the same signature
and the same body, whenever both succeed. If adapting succeeds and every value is there, binding
succeeds as well. -/
theorem adapt_bindAt_agree (header header' : Header) (target : Procedure) (k : Nat)
    (hk : k ≤ target.signature.arity) (vs : List Value)
    (hvs : vs.length ≤ target.signature.arity - k) :
    (∀ s s' g f,
      ((adapt header (target.signature.leading k) target (.positional vs)).runOn s).1 = .ok g →
      ((bindAt header' target (Binding.filling vs (target.signature.arity - k)) k).runOn s').1
        = .ok f →
      g.signature = f.signature ∧ ∃ body, g.body? = some body ∧ f.body? = some body) ∧
    ((∀ v ∈ vs, v.isAbsent = false) → ∀ s s' g,
      ((adapt header (target.signature.leading k) target (.positional vs)).runOn s).1 = .ok g →
      ∃ f, ((bindAt header' target (Binding.filling vs (target.signature.arity - k)) k).runOn s').1
        = .ok f) := by
  constructor
  · intro s s' g f hg hf
    -- What binding has fixed has been converted.
    obtain ⟨-, a, s'', harrange, -⟩ := bindAt_eq_ok hf
    obtain ⟨-, sources, -, hsourced⟩ := arrange_sourced (congrArg Prod.fst harrange)
    rw [roles_eq_append hk (Binding.length_filling hvs)] at hsourced
    obtain ⟨body, rfl, hgives⟩ := gives_bindAt_of_adapt header' hk hvs hg
      fun p v hmem => hsourced.converts (List.mem_append_right _ (mem_zip_filling hmem _))
    rw [hgives s'] at hf
    cases hf
    exact ⟨rfl, body, rfl, rfl⟩
  · intro hpresent s s' g hg
    have hconvert : ∀ p v, (p, v) ∈ (target.signature.params.drop k).zip vs →
        ∃ w, v.convert p.type = .ok w := by
      intro p v hmem
      have hloads : Loads (some v) p.type := by
        apply loads_of_adapt hg
        rwa [Signature.arity_leading hk]
      exact hloads.exists_convert (hpresent v (List.of_mem_zip hmem).2)
    obtain ⟨body, -, hgives⟩ := gives_bindAt_of_adapt header' hk hvs hg hconvert
    exact ⟨_, hgives s'⟩

/-- A byte is given for a wrapper, bare as it is, and nothing for a text; the last parameter takes its
default. Adapting and binding both succeed. -/
theorem adapt_bindAt_agree_bare_and_absent :
    ∃ target g f, target = Procedure.host 1 "f" ⟨[.ofType .i32, .ofType (.nullable .u8), .ofType .str,
        ⟨some "d", .i64, some (.i64 7)⟩], .str⟩ (fun args => .ok (args.getD 2 .unit)) ∧
      ((adapt ⟨2, "g", 0⟩ (target.signature.leading 1) target
        (.positional [.u8 200, .null])).runOn .empty).1 = .ok g ∧
      ((bindAt ⟨3, "g", 0⟩ target [.fixed (.u8 200), .fixed .null, .default .parameter] 1).runOn
        .empty).1 = .ok f ∧
      g.signature = f.signature ∧ ∃ body, g.body? = some body ∧ f.body? = some body := by
  obtain ⟨target, htarget⟩ : ∃ target, target = Procedure.host 1 "f" ⟨[.ofType .i32,
    .ofType (.nullable .u8), .ofType .str, ⟨some "d", .i64, some (.i64 7)⟩], .str⟩
    (fun args => .ok (args.getD 2 .unit)) := ⟨_, rfl⟩
  obtain ⟨g, hg⟩ : ∃ g, ((adapt ⟨2, "g", 0⟩ (target.signature.leading 1) target
    (.positional [.u8 200, .null])).runOn .empty).1 = .ok g := by
    subst htarget
    exact ⟨_, rfl⟩
  obtain ⟨f, hf⟩ : ∃ f, ((bindAt ⟨3, "g", 0⟩ target [.fixed (.u8 200), .fixed .null,
    .default .parameter] 1).runOn .empty).1 = .ok f := by
    subst htarget
    exact ⟨_, rfl⟩
  have harity : target.signature.arity = 4 := by
    subst htarget
    rfl
  have hagree := (adapt_bindAt_agree ⟨2, "g", 0⟩ ⟨3, "g", 0⟩ target 1 (by omega) [.u8 200, .null]
    (by simp [harity])).1 .empty .empty g f hg
  rw [harity] at hagree
  exact ⟨target, g, f, htarget, hg, hf, hagree hf⟩

end CallAdapter
