import CallAdapter.Adapt.Filling
import CallAdapter.Proofs.PartialApplication

/-!
# Histories

An `Operation` is anything that can be done with procedures and resolvers: ask a resolver for a zero
value, adapt a target, bind its parameters, list a body, or call a procedure. Each of them leaves its
traces in the store, also if it fails: zero values that have been constructed, bodies that have been
decoded, and the log. None of them shows in an answer (`Operation.answer_eq`).

What building a procedure can do with the store is said by `asks_adapt` and `asks_bindAt`, and what a
call can do by `Procedure.acts_invoke`. What a history leaves in the store is followed along a
`Store.Chain`.
-/

namespace CallAdapter

open CallAdapter.Task

inductive Operation where
  | zeroValue (resolver : ResolverId) (type : ValueType)
  | adapt (header : Header) (supplied : Signature) (target : Procedure) (filling : Filling)
  | bindAt (header : Header) (target : Procedure) (bindings : List Binding) (start : Nat)
  | listing (procedure : Procedure)
  | invoke (procedure : Procedure) (args : List Value)

inductive Answer where
  | zero (value : Option Value)
  | built (outcome : Except BuildError Procedure)
  | listed (outcome : Except RunError (List ListingLine))
  | returned (outcome : Except RunError Value)

namespace Operation

def perform (s : Store) : Operation → Answer × Store
  | .zeroValue resolver type => (s.zero? resolver type).map .zero id
  | .adapt header supplied target filling =>
    ((CallAdapter.adapt header supplied target filling).runOn s).map .built id
  | .bindAt header target bindings start =>
    ((CallAdapter.bindAt header target bindings start).runOn s).map .built id
  | .listing procedure => (procedure.listing.runOn s).map .listed id
  | .invoke procedure args => ((procedure.invoke args).runOn s).map .returned id

def after (s : Store) (history : List Operation) : Store :=
  history.foldl (fun s o => (o.perform s).2) s

end Operation

/-! ### Building -/

section Building

variable {P : ResolverId → ValueType → Prop}

theorem asks_assemble (header : Header) (params : List Parameter) (target : Procedure)
    (code : List (Instruction Callee)) (locals : Locals) :
    (assemble header params target code locals).Asks P := by
  refine .bind (.ofExcept _) fun body _ _ => ?_
  exact .bind (.log fun _ => rfl) fun _ _ _ => acts_pure _

/-- Adapting asks for nothing. -/
theorem asks_adapt (header : Header) (supplied : Signature) (target : Procedure)
    (filling : Filling) : (adapt header supplied target filling).Asks fun _ _ => False := by
  refine .bind (.ofExcept _) fun _ _ _ => ?_
  refine .bind (.ofExcept _) fun forwarded _ _ => ?_
  refine .bind (.ofExcept _) fun values _ _ => ?_
  refine .bind (.ofExcept _) fun loaded _ _ => ?_
  exact asks_assemble ..

variable {resolver : ResolverId}

theorem Parameter.asks_defaultBy (p : Parameter) (position : Nat) (policy : DefaultPolicy) :
    (p.defaultBy position resolver policy).Asks fun r _ => r = resolver := by
  cases policy with
  | parameter => exact (Acts.ofExcept _).map _
  | type => exact .zero? rfl
  | parameterOrType =>
    unfold Parameter.defaultBy
    cases p.default with
    | some v => exact acts_pure _
    | none => exact .zero? rfl

theorem asks_arrangeConstant (position kept : Nat) (locals : Locals) (p : Parameter)
    (v : Option Value) {rest : List (Parameter × Binding)}
    (hrest : ∀ position kept locals, (arrange resolver position kept locals rest).Asks P) :
    (arrangeConstant resolver position kept locals p v rest).Asks P := by
  refine .bind (.ofExcept _) fun loaded _ _ => ?_
  exact .bind (hrest ..) fun a _ _ => acts_pure _

theorem asks_arrange (position kept : Nat) (locals : Locals) (roles : List (Parameter × Binding)) :
    (arrange resolver position kept locals roles).Asks fun r _ => r = resolver := by
  induction roles generalizing position kept locals with
  | nil => exact acts_pure _
  | cons role rest ih =>
    obtain ⟨p, binding⟩ := role
    cases binding with
    | keep =>
      refine .bind (.ofExcept _) fun index _ _ => ?_
      exact .bind (ih ..) fun a _ _ => acts_pure _
    | fixed v =>
      refine .bind (.ofExcept _) fun w _ _ => ?_
      exact asks_arrangeConstant _ _ _ _ _ ih
    | default policy =>
      refine .bind (p.asks_defaultBy position policy) fun v _ _ => ?_
      exact asks_arrangeConstant _ _ _ _ _ ih

/-- Binding asks the resolver of the new procedure only. -/
theorem asks_bindAt (header : Header) (target : Procedure) (bindings : List Binding) (start : Nat) :
    (bindAt header target bindings start).Asks fun r _ => r = header.resolver := by
  rcases Nat.lt_or_ge target.signature.arity (start + bindings.length) with hlong | hfits
  · rw [bindAt_eq_throw hlong]
    exact .ofExcept (.error _)
  · rw [bindAt_eq hfits]
    exact .bind (asks_arrange ..) fun a _ _ => asks_assemble ..

end Building

/-! ### From one store to another -/

/-- A way from one store to another, past a list of places. A place is come to on one store and left on
another; between places the store changes by the relation `R` only. -/
inductive Store.Chain {ι : Type} (R : Store → Store → Prop) (come left : ι → Store) :
    Store → List ι → Store → Prop
  | nil {s s' : Store} : R s s' → Chain R come left s [] s'
  | cons {s s' : Store} {i : ι} {is : List ι} : R s (come i) → Chain R come left (left i) is s' →
      Chain R come left s (i :: is) s'

namespace Store.Chain

variable {ι : Type} {R : Store → Store → Prop} {come left : ι → Store} {s s' s'' : Store}
  {is js : List ι}

theorem of_related (htrans : ∀ {s s' s'' : Store}, R s s' → R s' s'' → R s s'') (h : R s s')
    (h' : Chain R come left s' is s'') : Chain R come left s is s'' := by
  cases h' with
  | nil hlast => exact .nil (htrans h hlast)
  | cons hfirst hrest => exact .cons (htrans h hfirst) hrest

theorem append (htrans : ∀ {s s' s'' : Store}, R s s' → R s' s'' → R s s'')
    (h : Chain R come left s is s') (h' : Chain R come left s' js s'') :
    Chain R come left s (is ++ js) s'' := by
  induction h with
  | nil hlast => exact h'.of_related htrans hlast
  | cons hfirst _ ih => exact .cons hfirst (ih h')

/-- The way to one of the places. -/
theorem to_place {i : ι} (h : Chain R come left s (is ++ i :: js) s') :
    Chain R come left s is (come i) := by
  induction is generalizing s with
  | nil =>
    cases h with
    | cons hfirst _ => exact .nil hfirst
  | cons j is ih =>
    cases h with
    | cons hfirst hrest => exact .cons hfirst (ih hrest)

/-- What holds between places, and is carried over each of them, holds at the end. -/
theorem invariant {P : List ι → Store → Prop}
    (hrelated : ∀ {earlier s s'}, R s s' → P earlier s → P earlier s')
    (h : Chain R come left s is s')
    (hplace : ∀ earlier, ∀ i ∈ is, P earlier (come i) → P (earlier ++ [i]) (left i))
    {earlier : List ι} (hs : P earlier s) : P (earlier ++ is) s' := by
  induction h generalizing earlier with
  | nil hlast =>
    rw [List.append_nil]
    exact hrelated hlast hs
  | @cons s s' i is hfirst _ ih =>
    rw [List.append_cons]
    apply ih fun earlier j hj => hplace earlier j (List.mem_cons_of_mem i hj)
    exact hplace earlier i (List.mem_cons_self ..) (hrelated hfirst hs)

end Store.Chain

/-! ### Histories -/

namespace Operation

/-- An operation has the same answer on every store. -/
theorem answer_eq (o : Operation) (s s' : Store) : (o.perform s).1 = (o.perform s').1 := by
  cases o with
  | zeroValue resolver type =>
    exact congrArg Answer.zero
      ((s.zero?_fst resolver type).trans (s'.zero?_fst resolver type).symm)
  | adapt header supplied target filling =>
    have hsettled := (asks_adapt header supplied target filling).settled
    exact congrArg Answer.built (hsettled.gives_runOn s' s)
  | bindAt header target bindings start =>
    have hsettled := (asks_bindAt header target bindings start).settled
    exact congrArg Answer.built (hsettled.gives_runOn s' s)
  | listing procedure =>
    have hsettled := procedure.acts_listing.settled fun _ h => h.settled
    exact congrArg Answer.listed (hsettled.gives_runOn s' s)
  | invoke procedure args =>
    exact congrArg Answer.returned ((procedure.settled_invoke args).gives_runOn s' s)

end Operation

-- A history leaves its marks in the store.
example : ((Operation.after .empty [.zeroValue 0 .i32, .zeroValue 0 .str, .zeroValue 0 .i32]).cache
    0).constructions = 1 := by
  decide

end CallAdapter
