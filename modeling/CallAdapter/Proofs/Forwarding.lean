import CallAdapter.Proofs.Agreement
import CallAdapter.Proofs.Executions

/-!
# Forwarded arguments are taken

A supplied signature is checked against the target's when a procedure is built, by types alone; the
arguments are put into the slots of the target's parameters when it runs, by their values. The two
are written apart. `forwarding_sound` says that they agree: what has passed the check is refused in
a run at one pair of types only, the unit type and the top type.

A run refuses an argument (`RefusesArgument`) when a call in it raises the error in its own frame,
whatever the callee would have answered. In an adapter that can only be the call of the target, and
there it is the first value that does not fit (`Fetches.refusesArgument_iff`). Constants fit always,
so it is a forwarded argument (`misfit_iff`).
-/

namespace CallAdapter

open Value Machine Machine.Execution

/-! ### The call of the target -/

/-- The run ends at a call that does not take its argument with index `i`. -/
def Machine.Execution.RefusesArgument (x : Execution) (i : Nat) : Prop :=
  ∃ k p callee t actual, x.code[k]? = some p ∧ p.instruction.move = .call callee ∧
    x.Raises k (.argumentType callee.text i t actual)

namespace Fetches

variable {locals : Locals} {sources : List Source} {code : List (Instruction Callee)}
  {target : Procedure} {body : Body Callee}

/-- If the body of an adapter decodes at all, it decodes to the adapter's code. -/
theorem instructions_of_decode (h : Fetches .empty sources code locals)
    (hfinish : Draft.finish ⟨adapterCode code target, locals⟩ = .ok body)
    {ps : List (Placed Callee)} (hdecode : body.decode = .ok ps) :
    ps.map Placed.instruction = adapterCode code target := by
  obtain ⟨ps', hps', hinstructions⟩ := Draft.decode_eq hfinish
    (Draft.addressable_of_decode hfinish hdecode)
    fun i hi j hj a c ha hc hac => h.wrappersOnly.callee_eq hi hj ha hc hac
  cases hdecode.symm.trans hps'
  exact hinstructions

/-- The run of an adapter's body has the adapter's code. -/
theorem map_instruction_ofBody (h : Fetches .empty sources code locals)
    (hfinish : Draft.finish ⟨adapterCode code target, locals⟩ = .ok body)
    {ps : List (Placed Callee)} (hdecode : body.decode = .ok ps) (header : Header)
    (signature : Signature) (received : List Value) (s : Store) :
    (ofBody header signature body ps received s).code.map Placed.instruction
      = linkCode (adapterCode code target) := by
  rw [linkCode, ← h.instructions_of_decode hfinish hdecode]
  simp [ofBody, Placed.map]

/-- The run of an adapter refuses an argument at the call of the target, if at all: the first of the
values that the sources give which does not fit the slot of its parameter. -/
theorem refusesArgument_iff (h : Fetches .empty sources code locals)
    (hsources : sources.length = target.signature.arity) {x : Execution}
    (hcode : x.code.map Placed.instruction = linkCode (adapterCode code target))
    (hlocals : x.locals = locals.types) {ws : List Value}
    (hws : sources.map (Source.pushed? x.args) = ws.map some) (i : Nat) :
    x.RefusesArgument i ↔
      (List.zipWith asSlot? ws target.signature.types)[i]? = some none ∧
        ∀ j < i, (List.zipWith asSlot? ws target.signature.types)[j]? ≠ some none := by
  obtain ⟨front, back, hsplit, hfront, hback⟩ := List.map_eq_append_iff.mp
    (hcode.trans List.map_append)
  obtain ⟨p, _, rfl, hp, hback⟩ := List.map_eq_cons_iff.mp hback
  obtain ⟨q, _, rfl, hq, hback⟩ := List.map_eq_cons_iff.mp hback
  obtain rfl := List.map_eq_nil_iff.mp hback
  -- The code in front pushes the values of the sources, so that they lie on the stack at the call.
  obtain ⟨slots, hpush⟩ := h.gives_steps x.context hws hfront
    (f := ⟨x.args, x.locals.map ValueType.initial, []⟩) rfl (by simp [hlocals, Locals.size])
  obtain ⟨s, hreaches⟩ := x.exists_reaches_of_steps hsplit hpush
  have hcall : x.code[front.length]? = some p := by simp [hsplit]
  have hmove : p.instruction.move = .call (Callee.procedure target).link := by
    rw [hp]
    rfl
  have hlen : ws.length = (Callee.procedure target).link.params.length := by
    have hcount := congrArg List.length hws
    simpa [Callee.link, Signature.types, Signature.arity, hsources, eq_comm] using hcount
  have hpop := popValues_append (f := ⟨x.args, slots, (ws.map Slot.value).reverse ++ []⟩)
    p.offset rfl
  rw [hlen] at hpop
  have hraises (e : RunError) := Frame.raises_call_iff (c := x.context) (e := e) hmove hpop
  rw [← fitAll_error_iff (Callee.procedure target).text]
  constructor
  · rintro ⟨k, p', callee, t, actual, hp', hmove', hraise⟩
    -- Nothing is raised in front of the call, and behind it there is only the return.
    have hk : k = front.length := by
      have hle := hreaches.le_of_raises hraise
      obtain ⟨d, rfl⟩ := Nat.exists_eq_add_of_le hle
      rw [hsplit, List.getElem?_append_right hle, Nat.add_sub_cancel_left] at hp'
      cases d with
      | zero => rfl
      | succ d =>
        have hret : q = p' := by
          cases d with
          | zero => exact Option.some.inj hp'
          | succ d => cases hp'
        rw [← hret, hq] at hmove'
        cases hmove'
    subst hk
    cases hcall.symm.trans hp'
    cases hmove.symm.trans hmove'
    obtain ⟨-, f', s', hreaches', ⟨p', hp', hraise⟩ | ⟨hend, -⟩⟩ := hraise
    · cases hcall.symm.trans hp'
      cases hreaches.2.symm.trans hreaches'.2
      exact ⟨t, actual, (hraises _).mp hraise⟩
    · simp [hsplit] at hend
  · rintro ⟨t, actual, herror⟩
    exact ⟨front.length, p, _, t, actual, hcall, hmove,
      hreaches.raises hcall ((hraises _).mpr herror)⟩

end Fetches

/-! ### Forwarded arguments and constants -/

/-- Of what an adapter pushes for its target, nothing fails to fit but the unit value where the target
has the top type. -/
theorem misfit_iff {supplied target : Signature} {received values : List Value}
    (hfits : List.Forall₂ (fun v p => v.Fits p.type) received supplied.params)
    (hcheck : checkSupplied supplied target = .ok ())
    (hloads : ∀ p v, (p, v) ∈ (target.params.drop supplied.arity).zip values →
      Loads (some v) p.type) (i : Nat) :
    (List.zipWith asSlot? (forwardedValues received (target.params.drop supplied.arity) values)
        target.types)[i]? = some none ↔
      supplied.types[i]? = some .unit ∧ target.types[i]? = some .object := by
  have hlen : received.length = supplied.arity := hfits.length_eq
  obtain ⟨hshort, hforwarded⟩ := checkSupplied_eq_ok hcheck
  rcases Nat.lt_or_ge i supplied.arity with hlt | hge
  · -- A forwarded argument fits the caller's parameter, from which the target's is assignable.
    have hours : supplied.params[i]? = some supplied.params[i] := List.getElem?_eq_getElem hlt
    have htheirs : target.params[i]? = some _ := List.getElem?_eq_getElem (hlt.trans_le hshort)
    have hv : received[i]? = some _ := List.getElem?_eq_getElem (hlen ▸ hlt)
    have hfit := (List.forall₂_iff_zip.mp hfits).2
      (List.mem_of_getElem? (List.getElem?_zip_eq_some.mpr ⟨hv, hours⟩))
    have hassign := isAssignableFrom_of_checkForwarded hforwarded hours htheirs
    have hiff := asSlot?_eq_none_iff hfit hassign
    rw [List.getElem?_zipWith, forwardedValues, List.getElem?_append_left (hlen ▸ hlt), hv,
      Signature.types, Signature.types, List.getElem?_map, List.getElem?_map, hours, htheirs]
    simpa using hiff
  · constructor
    · -- What is filled in fits its slot.
      intro h
      obtain ⟨w, t, hw, ht, hnone⟩ := List.getElem?_zipWith_eq_some.mp h
      rw [forwardedValues, List.getElem?_append_right (hlen ▸ hge), hlen, List.getElem?_map] at hw
      obtain ⟨⟨p, v⟩, hpair, rfl⟩ := Option.map_eq_some_iff.mp hw
      obtain ⟨hp, -⟩ := List.getElem?_zip_eq_some.mp hpair
      rw [List.getElem?_drop, Nat.add_sub_cancel' hge] at hp
      rw [Signature.types, List.getElem?_map, hp] at ht
      cases ht
      have hslot := (hloads p v (List.mem_of_getElem? hpair)).asSlot?_loadedValue
      cases hslot.symm.trans hnone
    · rintro ⟨hunit, -⟩
      rw [Signature.types, List.getElem?_map, List.getElem?_eq_none hge] at hunit
      cases hunit

theorem adapt_refusesArgument_iff {header : Header} {supplied : Signature} {target g : Procedure}
    {filling : Filling} {s : Store}
    (h : ((adapt header supplied target filling).runOn s).1 = .ok g) {x : Execution}
    {args : List Value} (hx : x.IsRunOf g args) (i : Nat) :
    x.RefusesArgument i ↔
      (supplied.types[i]? = some .unit ∧ target.signature.types[i]? = some .object) ∧
      ∀ j < i, ¬ (supplied.types[j]? = some .unit ∧ target.signature.types[j]? = some .object) := by
  obtain ⟨hcheck, forwarded, values, pushes, locals, hforward, hvalues, hload, hassemble⟩ :=
    adapt_eq_ok h
  obtain ⟨body, hfinish, rfl⟩ := assemble_eq_ok hassemble
  obtain ⟨_, _, _, code, received, t, hg, hreceive, hdecode, rfl⟩ := hx
  cases hg
  obtain ⟨hbytes, hfront⟩ := fetches_forward .empty hforward
  obtain ⟨hback, -⟩ := loadAll_eq_ok hload
  have hfetches := hfront.append hback
  have hfits : List.Forall₂ (fun v p => v.Fits p.type) received supplied.params :=
    fits_of_receive hreceive
  have hsources := length_forwardedSources supplied.arity (filledBy_of_values hvalues).length_eq
  rw [List.length_drop, ← Signature.arity, Nat.add_sub_cancel' (checkSupplied_eq_ok hcheck).1]
    at hsources
  have hlen : received.length = supplied.arity := hfits.length_eq
  have hpushed := map_pushed?_forwardedSources (target.signature.params.drop supplied.arity) values
    (hlen ▸ hbytes)
  rw [hlen] at hpushed
  rw [hfetches.refusesArgument_iff hsources
    (hfetches.map_instruction_ofBody hfinish hdecode _ _ received t)
    (Draft.finish_eq_ok hfinish).2 hpushed]
  simp only [ne_eq, misfit_iff hfits hcheck fun p v hmem => loads_of_loadAll hload hmem]

theorem bindAt_not_refusesArgument {header : Header} {target g : Procedure}
    {bindings : List Binding} {start : Nat} {s : Store}
    (h : ((bindAt header target bindings start).runOn s).1 = .ok g) {x : Execution}
    {args : List Value} (hx : x.IsRunOf g args) (i : Nat) : ¬ x.RefusesArgument i := by
  obtain ⟨sources, _, _, body, hfetches, hsourced, htypes, hfinish, rfl⟩ := exists_fetches_of_bindAt h
  obtain ⟨_, _, _, code, received, t, hg, hreceive, hdecode, rfl⟩ := hx
  cases hg
  obtain ⟨ws, full, hws, hfull, -⟩ := hsourced.passes [] rfl (fits_of_receive hreceive)
  rw [hfetches.refusesArgument_iff (hsourced.length_eq_arity htypes)
    (hfetches.map_instruction_ofBody hfinish hdecode _ _ received t)
    (Draft.finish_eq_ok hfinish).2 hws, ← htypes, hfull, List.getElem?_map]
  rintro ⟨hnone, -⟩
  obtain ⟨w, -, hw⟩ := Option.map_eq_some_iff.mp hnone
  cases hw

/-! ### The main theorem -/

/-- **The check of a supplied signature is sound for execution.** What was received in a slot of type
`s` can be handed on to every slot whose type is assignable from `s`, except that the unit type is
assignable to the top type and the unit value never fits there. So a run of an adapter refuses one of
its own arguments at the call of the target exactly at the first position where the supplied type is
the unit type and the target's is the top type, and a run of a procedure with bound parameters
refuses none. -/
theorem forwarding_sound :
    (∀ (s t : ValueType) (v a : Value), t.isAssignableFrom s = true → v.asArgument? s = some a →
      (a.asSlot? t = none ↔ s = .unit ∧ t = .object)) ∧
    (∀ (header : Header) (supplied : Signature) (target : Procedure) (filling : Filling)
      (s : Store) (g : Procedure), ((adapt header supplied target filling).runOn s).1 = .ok g →
      ∀ (x : Execution) (args : List Value), x.IsRunOf g args → ∀ i, x.RefusesArgument i ↔
        (supplied.types[i]? = some .unit ∧ target.signature.types[i]? = some .object) ∧
        ∀ j < i, ¬ (supplied.types[j]? = some .unit ∧
          target.signature.types[j]? = some .object)) ∧
    (∀ (header : Header) (target : Procedure) (bindings : List Binding) (start : Nat) (s : Store)
      (g : Procedure), ((bindAt header target bindings start).runOn s).1 = .ok g →
      ∀ (x : Execution) (args : List Value), x.IsRunOf g args → ∀ i, ¬ x.RefusesArgument i) := by
  refine ⟨?_, ?_, ?_⟩
  · intro s t v a hassign hreceived
    exact asSlot?_eq_none_iff (fits_of_asArgument? hreceived) hassign
  · intro header supplied target filling s g h x args hx i
    exact adapt_refusesArgument_iff h hx i
  · intro header target bindings start s g h x args hx i
    exact bindAt_not_refusesArgument h hx i

/-- A number is handed on in a wrapper, and the unit value behind it is refused for an object. Nothing
in a wrapper can be handed on as an object. -/
theorem forwarding_sound_unit :
    ∃ target g x, target = Procedure.host 1 "f" ⟨[.ofType (.nullable .i32), .ofType .object], .i32⟩
        (fun _ => .ok (.i32 1)) ∧
      ((adapt ⟨2, "g", 0⟩ ⟨[.ofType .i32, .ofType .unit], .i32⟩ target (.positional [])).runOn
        .empty).1 = .ok g ∧
      Execution.IsRunOf x g [.i32 7, .unit] ∧
      x.outcome = ((g.invoke [.i32 7, .unit]).runOn .empty).1 ∧
      x.RefusesArgument 1 ∧ ¬ x.RefusesArgument 0 ∧
      Value.null.asArgument? (.nullable .i32) = some .empty ∧ Value.empty.asSlot? .object ≠ none := by
  obtain ⟨target, htarget⟩ : ∃ target, target = Procedure.host 1 "f" ⟨[.ofType (.nullable .i32),
    .ofType .object], .i32⟩ (fun _ => .ok (.i32 1)) := ⟨_, rfl⟩
  obtain ⟨body, hg⟩ : ∃ body, ((adapt ⟨2, "g", 0⟩ ⟨[.ofType .i32, .ofType .unit], .i32⟩ target
      (.positional [])).runOn .empty).1
      = .ok (.generated ⟨2, "g", 0⟩ ⟨[.ofType .i32, .ofType .unit], .i32⟩ body) := by
    subst htarget
    exact ⟨_, rfl⟩
  obtain ⟨code, hcode⟩ : ∃ code, body.decode = .ok code := by
    subst htarget
    cases hg
    exact ⟨_, by cbv⟩
  have hreceive : Signature.receive ⟨[.ofType .i32, .ofType .unit], .i32⟩ "g" [.i32 7, .unit]
    = .ok [.i32 7, .unit] := rfl
  obtain ⟨s, houtcome⟩ := exists_ofBody_of_invoke ⟨2, "g", 0⟩ hreceive hcode .empty
  have hx : IsRunOf _ _ _ := ⟨⟨2, "g", 0⟩, _, body, code, _, s, rfl, hreceive, hcode, rfl⟩
  obtain ⟨hvalues, hadapted, -⟩ := forwarding_sound
  have hrefuses := hadapted _ _ target _ _ _ hg _ _ hx
  refine ⟨target, _, _, htarget, hg, hx, houtcome, (hrefuses 1).mpr ?_, ?_, rfl, ?_⟩
  · subst htarget
    refine ⟨⟨rfl, rfl⟩, fun j hj => ?_⟩
    obtain rfl : j = 0 := by omega
    rintro ⟨hunit, -⟩
    cases hunit
  · intro hzero
    obtain ⟨⟨hunit, -⟩, -⟩ := (hrefuses 0).mp hzero
    cases hunit
  · intro hnone
    obtain ⟨hunit, -⟩ := (hvalues (.nullable .i32) .object .null .empty rfl rfl).mp hnone
    cases hunit

end CallAdapter
