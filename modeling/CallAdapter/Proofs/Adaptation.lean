import CallAdapter.Adapt.Filling
import CallAdapter.Proofs.Adapter

/-!
# Adapting calls the target on the coerced arguments and the filled values

A procedure made by `adapt` has the parameters of the supplied signature. `FilledBy` says which
values the open parameters of the target get; `fillGiven` is how both kinds of filling find them
(`values_positional`, `values_named`). The main theorem, `adapt_exact`, says that a call
hands the received arguments on to the target's leading parameters and the filled values to the
others.

Handing an argument on can fail, since the unit type is assignable to the top type while the unit
value is no instance of it; by `asSlot?_eq_none_iff` this is the only way.
-/

namespace CallAdapter

open Machine Value

/-! ### The specification -/

/-- The last value for a name, unless the name is used up. -/
def unusedValue? (entries : List (String × Value)) (used : List String) (name : String) :
    Option Value :=
  if name ∈ used then none else lastNamed? entries name

/-- The value that a filling gives to the open parameter with the given index. A value with a name
goes to the first parameter of that name. -/
def Filling.given? (filling : Filling) (trailing : List Parameter) (i : Nat) : Option Value :=
  match filling with
  | .positional values => values[i]?
  | .named entries =>
    (trailing[i]?.bind Parameter.name).bind
      (unusedValue? entries ((trailing.take i).filterMap Parameter.name))

/-- There is one value for each open parameter: the one that is given for it, or else its declared
default. -/
structure FilledBy (given : Nat → Option Value) (trailing : List Parameter) (values : List Value) :
    Prop where
  length_eq : values.length = trailing.length
  value_eq : ∀ i p, trailing[i]? = some p → values[i]? = (given i).or p.default

def filledArguments (trailing : List Parameter) (values : List Value) : List Value :=
  List.zipWith (fun p v => p.type.received (some v)) trailing values

/-! ### Filling -/

theorem FilledBy.nil (given : Nat → Option Value) : FilledBy given [] [] := ⟨rfl, by simp⟩

theorem FilledBy.cons {given : Nat → Option Value} {p : Parameter} {trailing : List Parameter}
    {v : Value} {values : List Value} (hhead : some v = (given 0).or p.default)
    (h : FilledBy (fun i => given (i + 1)) trailing values) :
    FilledBy given (p :: trailing) (v :: values) := by
  refine ⟨congrArg (· + 1) h.length_eq, fun i q hq => ?_⟩
  cases i with
  | zero =>
    cases hq
    exact hhead
  | succ i => exact h.value_eq i q hq

/-- The values are determined by what is given. -/
theorem FilledBy.eq {given : Nat → Option Value} {trailing : List Parameter}
    {values values' : List Value} (h : FilledBy given trailing values)
    (h' : FilledBy given trailing values') : values = values' := by
  apply List.ext_getElem?
  intro i
  rcases Nat.lt_or_ge i trailing.length with hlt | hge
  · have hp := List.getElem?_eq_getElem hlt
    rw [h.value_eq i _ hp, h'.value_eq i _ hp]
  · rw [List.getElem?_eq_none (h.length_eq ▸ hge), List.getElem?_eq_none (h'.length_eq ▸ hge)]

/-- Values for the open parameters from a position on, from what is given for each of them. -/
def fillGiven (position : Nat) (given : Nat → Option Value) :
    List Parameter → Except BuildError (List Value)
  | [] => .ok []
  | p :: trailing => do
    let v ← (given 0).elim (p.declaredDefault position) .ok
    return v :: (← fillGiven (position + 1) (fun i => given (i + 1)) trailing)

theorem fillGiven_of_some {given : Nat → Option Value} {v : Value} (h : given 0 = some v)
    (position : Nat) (p : Parameter) (trailing : List Parameter) :
    fillGiven position given (p :: trailing)
      = (fillGiven (position + 1) (fun i => given (i + 1)) trailing).map (v :: ·) := by
  rw [fillGiven, h]
  cases fillGiven (position + 1) (fun i => given (i + 1)) trailing <;> rfl

theorem fillGiven_of_none {given : Nat → Option Value} (h : given 0 = none)
    (position : Nat) (p : Parameter) (trailing : List Parameter) :
    fillGiven position given (p :: trailing) = (do
      let v ← p.declaredDefault position
      return v :: (← fillGiven (position + 1) (fun i => given (i + 1)) trailing)) := by
  rw [fillGiven, h]
  rfl

theorem filledBy_of_fillGiven {position : Nat} {given : Nat → Option Value}
    {trailing : List Parameter} {values : List Value}
    (h : fillGiven position given trailing = .ok values) : FilledBy given trailing values := by
  induction trailing generalizing position given values with
  | nil =>
    cases h
    exact .nil _
  | cons p trailing ih =>
    obtain ⟨v, hv, h⟩ := exists_of_bind_eq_ok h
    obtain ⟨rest, hrest, h⟩ := exists_of_bind_eq_ok h
    cases h
    refine .cons ?_ (ih hrest)
    -- A given value goes before the declared default.
    cases hgiven : given 0 with
    | some w =>
      rw [hgiven] at hv
      cases hv
      rfl
    | none =>
      rw [hgiven] at hv
      exact (declaredDefault_eq_ok hv).symm

theorem fillByPosition_eq (position : Nat) (trailing : List Parameter) (values : List Value) :
    fillByPosition position trailing values = fillGiven position (values[·]?) trailing := by
  induction trailing generalizing position values with
  | nil => rfl
  | cons p trailing ih =>
    cases values with
    | nil =>
      rw [fillByPosition, ih, fillGiven_of_none rfl]
      rfl
    | cons v values =>
      rw [fillByPosition, ih, fillGiven_of_some rfl]
      rfl

theorem unusedValue?_append (entries : List (String × Value)) (used names : List String)
    (name : String) : unusedValue? entries (used ++ names) name
      = if name ∈ names then none else unusedValue? entries used name := by
  unfold unusedValue?
  by_cases hnames : name ∈ names <;> simp [hnames]

/-- The names `used` are those of earlier parameters for which a value was found. For the values
that are left it makes no difference to count the names of all earlier parameters as used. -/
theorem fillByName_eq {entries : List (String × Value)} (position : Nat) {used : List String}
    (trailing : List Parameter) (earlier : List String)
    (hused : ∀ name, unusedValue? entries used name = unusedValue? entries earlier name) :
    fillByName entries position used trailing
      = fillGiven position (fun i => (trailing[i]?.bind Parameter.name).bind (unusedValue? entries
          (earlier ++ (trailing.take i).filterMap Parameter.name))) trailing := by
  induction trailing generalizing position used earlier with
  | nil => rfl
  | cons p trailing ih =>
    have hnames : ∀ i, earlier ++ ((p :: trailing).take (i + 1)).filterMap Parameter.name
        = (earlier ++ p.name.toList) ++ (trailing.take i).filterMap Parameter.name := by
      intro i
      cases hname : p.name <;> simp [hname]
    have hgiven : p.name.bind (unusedValue? entries (earlier ++ []))
        = p.name.bind (unusedValue? entries used) := by
      rw [List.append_nil]
      exact congrArg p.name.bind (funext fun name => (hused name).symm)
    rw [fillByName]
    split
    · next v hv =>
      -- A value was found, so the name counts as used either way.
      have hstep : ∀ name, unusedValue? entries (p.name.toList ++ used) name
          = unusedValue? entries (earlier ++ p.name.toList) name := by
        intro name
        rw [unusedValue?_append entries earlier, ← hused]
        unfold unusedValue?
        by_cases hname : name ∈ p.name.toList <;> simp [hname]
      rw [ih _ _ hstep, fillGiven_of_some (hgiven.trans hv)]
      simp only [hnames, List.getElem?_cons_succ]
    · next hnone =>
      -- No value is left for the name, whether it counts as used from now on or not.
      have hstep : ∀ name, unusedValue? entries used name
          = unusedValue? entries (earlier ++ p.name.toList) name := by
        intro name
        rw [unusedValue?_append, ← hused]
        split
        · next hname =>
          rw [Option.mem_toList.mp hname] at hnone
          exact hnone
        · rfl
      rw [ih _ _ hstep, fillGiven_of_none (hgiven.trans hnone)]
      simp only [hnames, List.getElem?_cons_succ]

theorem values_positional (position : Nat) (trailing : List Parameter) (values : List Value) :
    (Filling.positional values).values position trailing
      = if trailing.length < values.length then
          .error (.arityMismatch trailing.length values.length)
        else fillGiven position ((Filling.positional values).given? trailing) trailing := by
  rw [Filling.values, fillByPosition_eq]
  rfl

theorem values_named (position : Nat) (trailing : List Parameter)
    (entries : List (String × Value)) :
    (Filling.named entries).values position trailing
      = if unknownNames entries trailing = [] then
          fillGiven position ((Filling.named entries).given? trailing) trailing
        else .error (.unknownName (unknownNames entries trailing)) := by
  rw [Filling.values]
  split
  · next hknown =>
    rw [if_pos hknown, fillByName_eq position trailing [] fun _ => rfl]
    rfl
  · next hunknown => rw [if_neg hunknown]

theorem filledBy_of_values {position : Nat} {trailing : List Parameter} {filling : Filling}
    {values : List Value} (h : filling.values position trailing = .ok values) :
    FilledBy (filling.given? trailing) trailing values := by
  cases filling with
  | positional given =>
    rw [values_positional] at h
    split at h
    · cases h
    · exact filledBy_of_fillGiven h
  | named entries =>
    rw [values_named] at h
    split at h
    · exact filledBy_of_fillGiven h
    · cases h

/-! ### The supplied signature -/

theorem isAssignableFrom_of_checkForwarded {position : Nat} {supplied target : List Parameter}
    (h : checkForwarded position supplied target = .ok ()) {i : Nat} {ours theirs : Parameter}
    (hours : supplied[i]? = some ours) (htheirs : target[i]? = some theirs) :
    theirs.type.isAssignableFrom ours.type = true := by
  induction supplied generalizing position target i with
  | nil => cases hours
  | cons p supplied ih =>
    cases target with
    | nil => cases htheirs
    | cons q target =>
      rw [checkForwarded] at h
      split at h
      · next hassign =>
        cases i with
        | zero =>
          cases hours
          cases htheirs
          exact hassign
        | succ i => exact ih h hours htheirs
      · cases h

theorem checkSupplied_eq_ok {supplied target : Signature}
    (h : checkSupplied supplied target = .ok ()) :
    supplied.arity ≤ target.arity ∧ checkForwarded 0 supplied.params target.params = .ok () := by
  unfold checkSupplied at h
  split at h
  · cases h
  · split at h
    · cases h
    · next hlong => exact ⟨Nat.le_of_not_lt hlong, h⟩

/-! ### The code of the arguments -/

theorem Fetches.append {locals locals' locals'' : Locals} {sources sources' : List Source}
    {code code' : List (Instruction Callee)} (h : Fetches locals sources code locals')
    (h' : Fetches locals' sources' code' locals'') :
    Fetches locals (sources ++ sources') (code ++ code') locals'' := by
  induction h with
  | nil => exact h'
  | argument index _ ih => exact .argument index (ih h')
  | constant hload _ ih =>
    rw [List.append_assoc]
    exact .constant hload (ih h')

/-- The instructions that forward arguments fetch them by their indices, which are bytes. -/
theorem fetches_forward (locals : Locals) {indices : List Nat} {code : List (Instruction Callee)}
    (h : indices.mapM (fun index => (shortIndex .argument index).map Instruction.loadArgument)
      = .ok code) :
    (∀ i ∈ indices, i < 256) ∧
      Fetches locals (indices.map fun i => .argument (UInt8.ofNat i)) code locals := by
  induction indices generalizing code with
  | nil =>
    cases h
    exact ⟨by simp, .nil⟩
  | cons i indices ih =>
    rw [List.mapM_cons] at h
    obtain ⟨instruction, hload, h⟩ := exists_of_bind_eq_ok h
    obtain ⟨index, hindex, rfl⟩ := exists_of_map_eq_ok hload
    obtain ⟨rest, hrest, h⟩ := exists_of_bind_eq_ok h
    cases h
    obtain ⟨hlt, rfl⟩ := shortIndex_eq_ok hindex
    obtain ⟨hbytes, hfetches⟩ := ih hrest
    exact ⟨by simpa [hlt] using hbytes, .argument _ hfetches⟩

theorem forward_error_iff {κ : Type} {kept : Nat} (h : kept ≤ 256) (n : Nat) {e : BuildError} :
    ((List.range' kept n).mapM fun index => (shortIndex .argument index).map
        (Instruction.loadArgument : UInt8 → Instruction κ)) = .error e ↔
      256 < kept + n ∧ e = .limitExceeded .argument 256 := by
  induction n generalizing kept with
  | zero =>
    constructor
    · intro herror
      cases herror
    · rintro ⟨hlong, -⟩
      omega
  | succ n ih =>
    rw [List.range'_succ, List.mapM_cons]
    -- The first index that is no byte is 256, and it is met before any later one.
    rcases Nat.lt_or_ge kept 256 with hlt | hge
    · have hnext : kept + (n + 1) = kept + 1 + n := by omega
      rw [shortIndex, if_pos hlt, hnext, ← ih hlt]
      exact map_eq_error_iff (f := (Instruction.loadArgument (UInt8.ofNat kept) :: ·))
    · obtain rfl : kept = 256 := by omega
      have hlimit : shortIndex .argument 256 = .error (.limitExceeded .argument 256) := rfl
      rw [hlimit]
      constructor
      · intro herror
        cases herror
        exact ⟨by omega, rfl⟩
      · rintro ⟨-, rfl⟩
        rfl

/-- Arguments are numbered by bytes. -/
theorem forwardAll_error_iff {κ : Type} {n : Nat} {e : BuildError} :
    (forwardAll n : Except BuildError (List (Instruction κ))) = .error e ↔
      256 < n ∧ e = .limitExceeded .argument 256 := by
  rw [forwardAll, List.range_eq_range', forward_error_iff (Nat.zero_le _), Nat.zero_add]

/-- The constants of a filling are fetched, and they arrive at their parameters, those that are
wrappers of the top type excepted. -/
theorem loadAll_eq_ok {locals locals' : Locals} {pairs : List (Parameter × Value)}
    {code : List (Instruction Callee)} (h : loadAll locals pairs = .ok (code, locals')) :
    Fetches locals (pairs.map fun pair => .constant (some pair.2) pair.1.type) code locals' ∧
      ∀ pair ∈ pairs, pair.1.type ≠ .nullable .object → Arrives (some pair.2) pair.1.type := by
  induction pairs generalizing locals code with
  | nil =>
    cases h
    exact ⟨.nil, by simp⟩
  | cons pair pairs ih =>
    obtain ⟨p, v⟩ := pair
    obtain ⟨⟨head, mid⟩, hload, h⟩ := exists_of_bind_eq_ok h
    obtain ⟨⟨rest, last⟩, hrest, h⟩ := exists_of_bind_eq_ok h
    cases h
    obtain ⟨hsimple, hloaded⟩ := loadedBy_of_loadConstant hload
    obtain ⟨hfetches, harrive⟩ := ih hrest
    refine ⟨.constant hloaded hfetches, ?_⟩
    intro pair hpair
    rcases List.mem_cons.mp hpair with rfl | hpair
    · exact hloaded.arrives hsimple
    · exact harrive pair hpair

/-! ### What arrives at the target -/

theorem zipWith_filled {trailing : List Parameter} {values : List Value}
    (h : ∀ pair ∈ trailing.zip values, Arrives (some pair.2) pair.1.type)
    (hlen : values.length = trailing.length) :
    List.zipWith asSlot?
        ((trailing.zip values).map fun pair => loadedValue (some pair.2) pair.1.type)
        (trailing.map Parameter.type)
      = (filledArguments trailing values).map some := by
  induction trailing generalizing values with
  | nil => rfl
  | cons p trailing ih =>
    cases values with
    | nil => cases hlen
    | cons v values =>
      have hhead : (loadedValue (some v) p.type).asSlot? p.type = _ := h (p, v) (by simp)
      have htail := ih (fun pair hpair => h pair (by simp [hpair])) (Nat.succ.inj hlen)
      simp only [List.zip_cons_cons, List.map_cons, List.zipWith_cons_cons, filledArguments, hhead]
      rw [htail, filledArguments]

/-- The sources of the target's arguments: `n` arguments are forwarded, and the open parameters are
filled. -/
def forwardedSources (n : Nat) (trailing : List Parameter) (values : List Value) : List Source :=
  ((List.range n).map fun i => .argument (UInt8.ofNat i)) ++
    (trailing.zip values).map fun pair => .constant (some pair.2) pair.1.type

/-- What is pushed for these sources. -/
def forwardedValues (received : List Value) (trailing : List Parameter) (values : List Value) :
    List Value :=
  received ++ (trailing.zip values).map fun pair => loadedValue (some pair.2) pair.1.type

theorem length_forwardedSources (n : Nat) {trailing : List Parameter} {values : List Value}
    (h : values.length = trailing.length) :
    (forwardedSources n trailing values).length = n + trailing.length := by
  simp [forwardedSources, h]

theorem map_pushed?_forwardedSources {received : List Value} (trailing : List Parameter)
    (values : List Value) (h : ∀ i ∈ List.range received.length, i < 256) :
    (forwardedSources received.length trailing values).map (Source.pushed? received)
      = (forwardedValues received trailing values).map some := by
  have hforwarded : ((List.range received.length).map fun i =>
      Source.argument (UInt8.ofNat i)).map (Source.pushed? received) = received.map some := by
    apply List.ext_getElem?
    intro i
    rcases Nat.lt_or_ge i received.length with hlt | hge
    · have hbyte := h i (List.mem_range.mpr hlt)
      simp [Source.pushed?, hlt, Nat.mod_eq_of_lt hbyte]
    · simp [hge]
  rw [forwardedSources, forwardedValues, List.map_append, List.map_append, hforwarded,
    List.map_map, List.map_map]
  rfl

/-- The arguments that were received go to the leading parameters, and the filled values to the
others. -/
theorem zipWith_forwardedValues {params : List Parameter} {received values : List Value}
    (hreceived : received.length ≤ params.length)
    (h : ∀ pair ∈ (params.drop received.length).zip values, Arrives (some pair.2) pair.1.type)
    (hlen : values.length = (params.drop received.length).length) :
    List.zipWith asSlot? (forwardedValues received (params.drop received.length) values)
        (params.map Parameter.type)
      = List.zipWith asSlot? received (params.map Parameter.type)
        ++ (filledArguments (params.drop received.length) values).map some := by
  induction received generalizing params with
  | nil => exact zipWith_filled h hlen
  | cons v received ih =>
    cases params with
    | nil => cases hreceived
    | cons p params =>
      have htail := ih (Nat.le_of_succ_le_succ hreceived) h hlen
      exact congrArg (v.asSlot? p.type :: ·) htail

/-- An argument that cannot be handed on is the unit value, for a parameter of the top type. -/
theorem misfit_cases {supplied target : Signature} {received : List Value}
    (hfits : List.Forall₂ (fun v p => v.Fits p.type) received supplied.params)
    (hforwarded : checkForwarded 0 supplied.params target.params = .ok ()) {i : Nat}
    (h : (List.zipWith asSlot? received target.types)[i]? = some none) :
    supplied.types[i]? = some .unit ∧ target.types[i]? = some .object := by
  obtain ⟨v, t, hv, ht, hnone⟩ := List.getElem?_zipWith_eq_some.mp h
  obtain ⟨theirs, htheirs, rfl⟩ := Option.map_eq_some_iff.mp (List.getElem?_map.symm.trans ht)
  obtain ⟨hlen, hzip⟩ := List.forall₂_iff_zip.mp hfits
  obtain ⟨hlt, -⟩ := List.getElem?_eq_some_iff.mp hv
  have hours := List.getElem?_eq_getElem (hlen ▸ hlt)
  have hfit := hzip (List.mem_of_getElem? (List.getElem?_zip_eq_some.mpr ⟨hv, hours⟩))
  have hassign := isAssignableFrom_of_checkForwarded hforwarded hours htheirs
  obtain ⟨hunit, hobject⟩ := (asSlot?_eq_none_iff hfit hassign).mp hnone
  rw [hobject] at ht
  refine ⟨?_, ht⟩
  rw [Signature.types, List.getElem?_map, hours, Option.map_some, hunit]

/-! ### The main theorem -/

theorem adapt_eq_ok {header : Header} {supplied : Signature} {target g : Procedure}
    {filling : Filling} {s : Store}
    (h : ((adapt header supplied target filling).runOn s).1 = .ok g) :
    checkSupplied supplied target.signature = .ok () ∧
    ∃ forwarded values code locals, forwardAll supplied.arity = .ok forwarded ∧
      filling.values supplied.arity (target.signature.params.drop supplied.arity) = .ok values ∧
      loadAll .empty ((target.signature.params.drop supplied.arity).zip values)
        = .ok (code, locals) ∧
      ((assemble header supplied.params target (forwarded ++ code) locals).runOn s).1 = .ok g := by
  obtain ⟨⟨⟩, hcheck, h⟩ := Task.ok_of_ofExcept_bind h
  obtain ⟨forwarded, hforward, h⟩ := Task.ok_of_ofExcept_bind h
  obtain ⟨values, hvalues, h⟩ := Task.ok_of_ofExcept_bind h
  obtain ⟨⟨code, locals⟩, hload, h⟩ := Task.ok_of_ofExcept_bind h
  exact ⟨hcheck, forwarded, values, code, locals, hforward, hvalues, hload, h⟩

/-- **Adapting is exact.** The new procedure has the supplied parameters and the target's result,
and there are values that fill the target's open parameters, such that the following holds on all
stores. A call fails if its arguments are not received. Otherwise the arguments are put into the
slots of the target's leading parameters. If all of them fit, the outcome is the target's for them
and the filled values: an error stays as it is, and a result is delivered in the slot of the result
type. If not, the first one that does not fit is reported; its own type is the unit type and the
target's is the top type. -/
theorem adapt_exact (header : Header) (supplied : Signature) (target : Procedure)
    (filling : Filling) (s : Store) (g : Procedure)
    (harity : target.signature.arity ≤ 2 ^ 24 - 2)
    (hobject : ∀ p ∈ target.signature.params.drop supplied.arity, p.type ≠ .nullable .object)
    (h : ((adapt header supplied target filling).runOn s).1 = .ok g) :
    g.signature = ⟨supplied.params, target.signature.result⟩ ∧
    ∃ values, FilledBy (filling.given? (target.signature.params.drop supplied.arity))
        (target.signature.params.drop supplied.arity) values ∧
      ∀ args s₁ s₂,
        (∀ e, g.signature.receive header.name args = .error e →
          ((g.invoke args).runOn s₁).1 = .error e) ∧
        (∀ received, g.signature.receive header.name args = .ok received →
          (∃ coerced,
            List.zipWith asSlot? received target.signature.types = coerced.map some ∧
            ((g.invoke args).runOn s₁).1 = (do
              let r ← ((target.invoke (coerced ++
                filledArguments (target.signature.params.drop supplied.arity) values)).runOn s₂).1
              delivered header.name target.signature.result r)) ∨
          (∃ i v,
            (List.zipWith asSlot? received target.signature.types)[i]? = some none ∧
            (∀ j < i, (List.zipWith asSlot? received target.signature.types)[j]? ≠ some none) ∧
            received[i]? = some v ∧ supplied.types[i]? = some .unit ∧
            target.signature.types[i]? = some .object ∧
            ((g.invoke args).runOn s₁).1
              = .error (.argumentType (Callee.procedure target).text i .object v.typeName))) := by
  obtain ⟨hcheck, forwarded, values, code, locals, hforward, hvalues, hload, hassemble⟩ :=
    adapt_eq_ok h
  obtain ⟨hshort, hforwarded⟩ := checkSupplied_eq_ok hcheck
  obtain ⟨body, hfinish, rfl⟩ := assemble_eq_ok hassemble
  obtain ⟨hbytes, hfront⟩ := fetches_forward .empty hforward
  obtain ⟨hback, harrive⟩ := loadAll_eq_ok hload
  have hfetches : Fetches .empty (forwardedSources supplied.arity
      (target.signature.params.drop supplied.arity) values) (forwarded ++ code) locals :=
    hfront.append hback
  have hfilled := filledBy_of_values hvalues
  refine ⟨rfl, values, hfilled, fun args s₁ s₂ => ⟨?_, ?_⟩⟩
  · intro e hrefused
    exact congrArg Prod.fst (Procedure.runOn_invoke_refused hrefused s₁)
  · intro received hreceive
    have hfits := fits_of_receive hreceive
    have hlen : received.length = supplied.arity := hfits.length_eq
    -- From here on the arguments are counted by `received`.
    rw [← hlen] at hshort hobject hbytes hfetches harrive hfilled ⊢
    have hsources := length_forwardedSources received.length hfilled.length_eq
    rw [List.length_drop, ← Signature.arity, Nat.add_sub_cancel' hshort] at hsources
    have hcount : target.signature.arity + 1 < Token.rowLimit := by
      rw [Token.rowLimit]
      omega
    have hinvoke := hfetches.gives_invoke (hsources ▸ hcount) hsources hfinish
      (fun args => (target.settled_invoke args).gives_runOn s₂) hreceive
      (map_pushed?_forwardedSources _ values hbytes) s₁
    have hslots : List.zipWith asSlot? (forwardedValues received
        (target.signature.params.drop received.length) values) target.signature.types
        = List.zipWith asSlot? received target.signature.types ++ _ :=
      zipWith_forwardedValues hshort (fun pair hpair =>
        harrive pair hpair (hobject _ (List.of_mem_zip hpair).1)) hfilled.length_eq
    rcases fitAll_cases (Callee.procedure target).text hslots with
      ⟨coerced, hcoerced, hfit⟩ | ⟨i, v, t, hi, hfirst, hv, ht, herror⟩
    · rw [hfit] at hinvoke
      exact .inl ⟨coerced, hcoerced, hinvoke⟩
    · obtain ⟨hunit, htop⟩ := misfit_cases hfits hforwarded hi
      obtain ⟨w, -, hw, -, -⟩ := List.getElem?_zipWith_eq_some.mp hi
      obtain ⟨hlt, -⟩ := List.getElem?_eq_some_iff.mp hw
      rw [forwardedValues, List.getElem?_append_left hlt] at hv
      rw [htop] at ht
      cases ht
      rw [herror] at hinvoke
      exact .inr ⟨i, v, hi, hfirst, hv, hunit, htop, hinvoke⟩

/-- A number is wrapped and a text passed as it is; one open parameter is given nothing, and the
declared default of the other one is wrapped. -/
theorem adapt_exact_open_pair :
    ∃ target g, target = Procedure.host 1 "f" ⟨[.ofType (.nullable .i32), .ofType .object,
        .ofType .str, ⟨some "d", .nullable .u8, some (.u8 200)⟩], .nullable .u8⟩
        (fun args => .ok (args.getD 3 .unit)) ∧
      ((adapt ⟨2, "g", 0⟩ ⟨[.ofType .i32, .ofType .str], .nullable .u8⟩ target
        (.positional [.null])).runOn .empty).1 = .ok g ∧
      ∀ s, ((target.invoke [.present (.i32 7), .str "a", .null, .present (.u8 200)]).runOn s).1
          = .ok (.present (.u8 200)) ∧
        ((g.invoke [.i32 7, .str "a"]).runOn s).1 = .ok (.present (.u8 200)) := by
  obtain ⟨target, htarget⟩ : ∃ target, target = Procedure.host 1 "f" ⟨[.ofType (.nullable .i32),
    .ofType .object, .ofType .str, ⟨some "d", .nullable .u8, some (.u8 200)⟩], .nullable .u8⟩
    (fun args => .ok (args.getD 3 .unit)) := ⟨_, rfl⟩
  obtain ⟨g, hg⟩ : ∃ g, ((adapt ⟨2, "g", 0⟩ ⟨[.ofType .i32, .ofType .str], .nullable .u8⟩ target
    (.positional [.null])).runOn .empty).1 = .ok g := by
    subst htarget
    exact ⟨_, rfl⟩
  have hobject : ∀ p ∈ target.signature.params.drop 2, p.type ≠ .nullable .object := by
    subst htarget
    simp [Procedure.signature, Parameter.ofType]
  obtain ⟨hsignature, values, hfilled, hinvoke⟩ := adapt_exact _
    ⟨[.ofType .i32, .ofType .str], .nullable .u8⟩ target _ .empty g (by subst htarget; decide)
    hobject hg
  have hvalues : values = [.null, .u8 200] := by
    subst htarget
    exact hfilled.eq (.cons rfl (.cons rfl (.nil _)))
  have htargets : ∀ s, ((target.invoke [.present (.i32 7), .str "a", .null,
      .present (.u8 200)]).runOn s).1 = .ok (.present (.u8 200)) := by
    subst htarget
    exact fun s => rfl
  refine ⟨target, g, htarget, hg, fun s => ⟨htargets s, ?_⟩⟩
  have hreceive : g.signature.receive "g" [.i32 7, .str "a"] = .ok [.i32 7, .str "a"] := by
    rw [hsignature]
    rfl
  rcases (hinvoke _ s s).2 _ hreceive with ⟨coerced, hcoerced, hcall⟩ | ⟨i, v, -, -, -, hunit, -, -⟩
  · have hpresent : coerced = [.present (.i32 7), .str "a"] := by
      subst htarget
      exact List.map_injective_iff.mpr (Option.some_injective Value) hcoerced.symm
    rw [hcall, hpresent, hvalues]
    subst htarget
    rfl
  · have hmem := List.mem_of_getElem? hunit
    simp [Signature.types, Parameter.ofType] at hmem

/-- The unit value can be received, but not be handed on to a parameter of the top type. -/
example : ∃ g, ((adapt ⟨2, "g", 0⟩ ⟨[.ofType .unit], .i32⟩
      (.host 1 "f" ⟨[.ofType .object], .i32⟩ fun _ => .ok (.i32 1)) (.positional [])).runOn
      .empty).1 = .ok g ∧
    ((g.invoke [.unit]).runOn .empty).1
      = .error (.argumentType "I32 f(Object)" 0 .object "Unit") :=
  ⟨_, rfl, by cbv⟩

end CallAdapter
