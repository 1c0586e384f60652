import CallAdapter.Proofs.Faults

/-!
# Values by name

A filling by name is a list of names with values. If no name occurs twice, it stands for a finite
map, and the main theorem, `named_lookup`, says that nothing but this map matters: the names that no
open parameter has are reported in order (`ListsUnknown`), each other value goes to the first
parameter of its name (`NamedFor`), and a parameter without a value takes its declared default. What
is then done with the values is what is done with the same values given by position.
-/

namespace CallAdapter

/-! ### The specification -/

/-- The list of the names with a value that no open parameter has. It is strictly sorted, so each of
them is listed once. -/
structure ListsUnknown (entries : List (String × Value)) (trailing : List Parameter)
    (names : List String) : Prop where
  sorted : names.Pairwise (· < ·)
  mem_iff : ∀ name, name ∈ names ↔
    (∃ v, (name, v) ∈ entries) ∧ ∀ p ∈ trailing, p.name ≠ some name

/-- The open parameter with the given index is the first one of its name, and this is the value for
that name. -/
def NamedFor (entries : List (String × Value)) (trailing : List Parameter) (i : Nat) (v : Value) :
    Prop :=
  ∃ p name, trailing[i]? = some p ∧ p.name = some name ∧
    (∀ q ∈ trailing.take i, q.name ≠ some name) ∧ (name, v) ∈ entries

/-- The values of the open parameters: one by name where there is one, and else the declared
default. -/
structure FilledByName (entries : List (String × Value)) (trailing : List Parameter)
    (values : List Value) : Prop where
  length_eq : values.length = trailing.length
  named : ∀ i v, NamedFor entries trailing i v → values[i]? = some v
  default : ∀ i p, trailing[i]? = some p → (∀ v, ¬ NamedFor entries trailing i v) →
    values[i]? = p.default

/-- The open parameter with the given index, the first of which is at a position, has neither a
value nor a default. -/
def missingFault (position : Nat) (given : Nat → Option Value) (trailing : List Parameter) (i : Nat)
    (e : BuildError) : Prop :=
  ∃ p, trailing[i]? = some p ∧ given i = none ∧ p.default = none ∧
    e = .missingDefault (p.label (position + i))

/-! ### Unknown names -/

section Unknown

variable {entries : List (String × Value)} {trailing : List Parameter}

theorem ListsUnknown.nodup {names : List String} (h : ListsUnknown entries trailing names) :
    names.Nodup := by
  refine h.sorted.imp ?_
  rintro a _ hlt rfl
  exact String.lt_irrefl a hlt

/-- There is one such list. -/
theorem ListsUnknown.eq {names names' : List String} (h : ListsUnknown entries trailing names)
    (h' : ListsUnknown entries trailing names') : names = names' := by
  refine List.Perm.eq_of_pairwise ?_ h.sorted h'.sorted ?_
  · intro a b _ _ hab hba
    exact absurd (String.lt_trans hab hba) (String.lt_irrefl a)
  · refine (List.perm_ext_iff_of_nodup h.nodup h'.nodup).mpr fun name => ?_
    rw [h.mem_iff, h'.mem_iff]

theorem listsUnknown_unknownNames (entries : List (String × Value)) (trailing : List Parameter) :
    ListsUnknown entries trailing (unknownNames entries trailing) := by
  have hle : ∀ a b : String, (!decide (b < a)) = true ↔ a ≤ b := by
    intro a b
    rw [Bool.not_eq_true', decide_eq_false_iff_not, String.not_lt]
  constructor
  · have hsorted : (unknownNames entries trailing).Pairwise fun a b => (!decide (b < a)) = true := by
      refine List.pairwise_mergeSort ?_ ?_ _
      · intro a b c hab hbc
        rw [hle] at *
        exact String.le_trans hab hbc
      · intro a b
        rw [Bool.or_eq_true, hle, hle]
        exact String.le_total a b
    have hnodup : (unknownNames entries trailing).Nodup :=
      (List.mergeSort_perm _ _).symm.nodup (distinct_eraseDups _).nodup
    -- Names that are in order and not repeated are in strict order.
    refine (hsorted.and hnodup).imp ?_
    rintro a b ⟨hab, hne⟩
    by_contra hlt
    exact hne (String.le_antisymm ((hle a b).mp hab) (String.not_lt.mp hlt))
  · intro name
    simp [unknownNames]

/-- The names of the map are all known if and only if none is listed. -/
theorem unknownNames_eq_nil_iff : unknownNames entries trailing = [] ↔
    ∀ name v, (name, v) ∈ entries → ∃ p ∈ trailing, p.name = some name := by
  have hlists := listsUnknown_unknownNames entries trailing
  rw [List.eq_nil_iff_forall_not_mem]
  simp only [hlists.mem_iff]
  constructor
  · intro h name v hv
    by_contra hnone
    exact h name ⟨⟨v, hv⟩, fun p hp hname => hnone ⟨p, hp, hname⟩⟩
  · rintro h name ⟨⟨v, hv⟩, hnone⟩
    obtain ⟨p, hp, hname⟩ := h name v hv
    exact hnone p hp hname

end Unknown

/-! ### Looking up names -/

section Lookup

variable {entries entries' : List (String × Value)} {trailing : List Parameter}

theorem lastNamed?_eq_some_iff (hkeys : (entries.map Prod.fst).Nodup) {name : String} {v : Value} :
    lastNamed? entries name = some v ↔ (name, v) ∈ entries := by
  rw [lastNamed?, List.lookup_eq_some_iff, ← List.mem_reverse]
  constructor
  · rintro ⟨before, after, heq, -⟩
    simp [heq]
  · intro hmem
    obtain ⟨before, after, heq⟩ := List.append_of_mem hmem
    refine ⟨before, after, heq, fun entry hentry => ?_⟩
    -- Another entry of the name would make it occur twice.
    have hnodup : (entries.reverse.map Prod.fst).Nodup := by
      rw [List.map_reverse]
      exact List.nodup_reverse.mpr hkeys
    rw [heq, List.map_append, List.map_cons] at hnodup
    have hne := (List.nodup_append.mp hnodup).2.2 entry.1 (List.mem_map_of_mem hentry) name (by simp)
    simpa using hne.symm

theorem given?_named_eq_some_iff (hkeys : (entries.map Prod.fst).Nodup) {i : Nat} {v : Value} :
    (Filling.named entries).given? trailing i = some v ↔ NamedFor entries trailing i v := by
  show (trailing[i]?.bind Parameter.name).bind _ = some v ↔ _
  rw [Option.bind_eq_some_iff]
  -- A name is unused if no open parameter before this one has it.
  constructor
  · rintro ⟨name, hname, hv⟩
    obtain ⟨p, hp, hname⟩ := Option.bind_eq_some_iff.mp hname
    rw [unusedValue?] at hv
    split at hv
    · cases hv
    · next hunused =>
      refine ⟨p, name, hp, hname, fun q hq hqname => ?_, (lastNamed?_eq_some_iff hkeys).mp hv⟩
      exact hunused (List.mem_filterMap.mpr ⟨q, hq, hqname⟩)
  · rintro ⟨p, name, hp, hname, hfirst, hv⟩
    have hunused : name ∉ (trailing.take i).filterMap Parameter.name := by
      intro hmem
      obtain ⟨q, hq, hqname⟩ := List.mem_filterMap.mp hmem
      exact hfirst q hq hqname
    refine ⟨name, by rw [hp]; exact hname, ?_⟩
    rw [unusedValue?, if_neg hunused, (lastNamed?_eq_some_iff hkeys).mpr hv]

theorem lastNamed?_perm (h : entries'.Perm entries) (hkeys : (entries.map Prod.fst).Nodup) :
    lastNamed? entries' = lastNamed? entries := by
  have hkeys' : (entries'.map Prod.fst).Nodup := (h.map Prod.fst).nodup_iff.mpr hkeys
  funext name
  refine Option.ext fun v => ?_
  rw [lastNamed?_eq_some_iff hkeys', lastNamed?_eq_some_iff hkeys, h.mem_iff]

theorem unknownNames_perm (h : entries'.Perm entries) (trailing : List Parameter) :
    unknownNames entries' trailing = unknownNames entries trailing := by
  have hlists := listsUnknown_unknownNames entries' trailing
  refine ListsUnknown.eq ⟨hlists.sorted, fun name => ?_⟩ (listsUnknown_unknownNames entries trailing)
  simp only [hlists.mem_iff, h.mem_iff]

/-- The order of the entries does not matter. -/
theorem values_named_perm (h : entries'.Perm entries) (hkeys : (entries.map Prod.fst).Nodup)
    (position : Nat) (trailing : List Parameter) :
    (Filling.named entries').values position trailing
      = (Filling.named entries).values position trailing := by
  have hunused : unusedValue? entries' = unusedValue? entries := by
    funext used name
    rw [unusedValue?, unusedValue?, lastNamed?_perm h hkeys]
  have hgiven : (Filling.named entries').given? trailing
      = (Filling.named entries).given? trailing := by
    funext i
    simp only [Filling.given?, hunused]
  rw [values_named, values_named, hgiven, unknownNames_perm h]

end Lookup

/-! ### Missing defaults -/

/-- Filling reports the first parameter with neither a value nor a default. -/
theorem reports_fillGiven (position : Nat) (given : Nat → Option Value)
    (trailing : List Parameter) :
    Reports (missingFault position given trailing) (fillGiven position given trailing) := by
  induction trailing generalizing position given with
  | nil =>
    refine Reports.ok ?_ _
    rintro i e ⟨p, hp, -⟩
    simp at hp
  | cons p trailing ih =>
    have htail : (fun i => missingFault position given (p :: trailing) (i + 1))
        = missingFault (position + 1) (fun i => given (i + 1)) trailing := by
      funext i e
      simp [missingFault, Nat.add_right_comm, Nat.add_assoc]
    rw [fillGiven]
    refine Reports.bind ?_ ?_
    · -- The head is at fault if it has neither a value nor a default.
      intro e
      cases hgiven : given 0 with
      | some v => simp [missingFault, hgiven]
      | none => simp [missingFault, hgiven, declaredDefault_error_iff]
    · intro v hv
      rw [htail]
      exact (ih (position + 1) _).bind_ok fun rest _ => ⟨_, rfl⟩

theorem fillByPosition_self {trailing : List Parameter} {values : List Value}
    (h : values.length = trailing.length) (position : Nat) :
    fillByPosition position trailing values = .ok values := by
  induction trailing generalizing position values with
  | nil =>
    rw [List.length_eq_zero_iff.mp h]
    rfl
  | cons p trailing ih =>
    cases values with
    | nil => cases h
    | cons v values =>
      rw [fillByPosition, ih (Nat.succ.inj h)]
      rfl

theorem values_positional_self {trailing : List Parameter} {values : List Value}
    (h : values.length = trailing.length) (position : Nat) :
    (Filling.positional values).values position trailing = .ok values := by
  rw [Filling.values, if_neg (by omega), fillByPosition_self h]

/-! ### The main theorem -/

theorem adapt_congr {supplied : Signature} {target : Procedure} {filling filling' : Filling}
    (h : filling.values supplied.arity (target.signature.params.drop supplied.arity)
      = filling'.values supplied.arity (target.signature.params.drop supplied.arity))
    (header : Header) :
    adapt header supplied target filling = adapt header supplied target filling' := by
  simp only [adapt, h]

theorem given?_named_eq_none_iff {entries : List (String × Value)}
    (hkeys : (entries.map Prod.fst).Nodup) {trailing : List Parameter} {i : Nat} :
    (Filling.named entries).given? trailing i = none ↔ ∀ v, ¬ NamedFor entries trailing i v := by
  simp only [Option.eq_none_iff_forall_ne_some, Ne, given?_named_eq_some_iff hkeys]

theorem filledByName_of_values {entries : List (String × Value)}
    (hkeys : (entries.map Prod.fst).Nodup) {position : Nat} {trailing : List Parameter}
    {values : List Value} (h : (Filling.named entries).values position trailing = .ok values) :
    FilledByName entries trailing values := by
  have hfilled := filledBy_of_values h
  refine ⟨hfilled.length_eq, fun i v hv => ?_, fun i p hp hnone => ?_⟩
  · obtain ⟨p, name, hp, hname⟩ := id hv
    rw [hfilled.value_eq i p hp, (given?_named_eq_some_iff hkeys).mpr hv]
    rfl
  · rw [hfilled.value_eq i p hp, (given?_named_eq_none_iff hkeys).mpr hnone]
    rfl

/-- **A filling by name is a finite map.** Let no name occur twice. The order of the entries does not
matter. Names that no open parameter has are reported, whatever else is wrong. Otherwise each value
goes to the first parameter of its name and the other parameters take their declared defaults; the
first one without a default is reported. Adapting with these values is adapting with the same values
by position. -/
theorem named_lookup (header : Header) (supplied : Signature) (target : Procedure)
    (entries : List (String × Value)) (hkeys : (entries.map Prod.fst).Nodup) :
    (∀ entries', entries'.Perm entries →
      adapt header supplied target (.named entries')
        = adapt header supplied target (.named entries)) ∧
    (∀ position trailing, (∃ name v, (name, v) ∈ entries ∧ ∀ p ∈ trailing, p.name ≠ some name) →
      ∃ names, ListsUnknown entries trailing names ∧
        (Filling.named entries).values position trailing = .error (.unknownName names)) ∧
    (∀ position trailing, (∀ name v, (name, v) ∈ entries → ∃ p ∈ trailing, p.name = some name) →
      Reports (fun i e => ∃ p, trailing[i]? = some p ∧ (∀ v, ¬ NamedFor entries trailing i v) ∧
          p.default = none ∧ e = .missingDefault (p.label (position + i)))
        ((Filling.named entries).values position trailing) ∧
      ∀ values, (Filling.named entries).values position trailing = .ok values →
        FilledByName entries trailing values) ∧
    (∀ values, (Filling.named entries).values supplied.arity
        (target.signature.params.drop supplied.arity) = .ok values →
      adapt header supplied target (.named entries)
        = adapt header supplied target (.positional values)) := by
  refine ⟨?_, ?_, ?_, ?_⟩
  · intro entries' hperm
    exact adapt_congr (values_named_perm hperm hkeys _ _) header
  · rintro position trailing ⟨name, v, hv, hunknown⟩
    refine ⟨_, listsUnknown_unknownNames entries trailing, ?_⟩
    rw [values_named, if_neg]
    intro hknown
    obtain ⟨p, hp, hname⟩ := unknownNames_eq_nil_iff.mp hknown name v hv
    exact hunknown p hp hname
  · intro position trailing hknown
    refine ⟨?_, fun values hvalues => filledByName_of_values hkeys hvalues⟩
    have hfault : missingFault position ((Filling.named entries).given? trailing) trailing
        = fun i e => ∃ p, trailing[i]? = some p ∧ (∀ v, ¬ NamedFor entries trailing i v) ∧
          p.default = none ∧ e = .missingDefault (p.label (position + i)) := by
      funext i e
      simp only [missingFault, given?_named_eq_none_iff hkeys]
    rw [values_named, if_pos (unknownNames_eq_nil_iff.mpr hknown), ← hfault]
    exact reports_fillGiven position _ trailing
  · intro values hvalues
    refine adapt_congr ?_ header
    rw [hvalues, values_positional_self (filledBy_of_values hvalues).length_eq]

/-- The name `a` occurs twice among the parameters: its value goes to the first of them, and the
other takes its default. -/
theorem named_lookup_repeated_name :
    ∃ target entries, target = Procedure.host 1 "f" ⟨[⟨some "a", .i32, none⟩, ⟨some "b", .i64, none⟩,
        ⟨some "a", .str, some (.str "s")⟩], .unit⟩ (fun _ => .ok .unit) ∧
      entries = [("b", Value.i64 1), ("a", .i32 5)] ∧ (entries.map Prod.fst).Nodup ∧
      adapt ⟨2, "g", 0⟩ ⟨[], .unit⟩ target (.named [("a", .i32 5), ("b", .i64 1)])
        = adapt ⟨2, "g", 0⟩ ⟨[], .unit⟩ target (.named entries) ∧
      adapt ⟨2, "g", 0⟩ ⟨[], .unit⟩ target (.named entries)
        = adapt ⟨2, "g", 0⟩ ⟨[], .unit⟩ target (.positional [.i32 5, .i64 1, .str "s"]) := by
  have hkeys : ([("b", Value.i64 1), ("a", .i32 5)].map Prod.fst).Nodup := by decide
  obtain ⟨horder, -, -, hpositional⟩ := named_lookup ⟨2, "g", 0⟩ ⟨[], .unit⟩
    (.host 1 "f" ⟨[⟨some "a", .i32, none⟩, ⟨some "b", .i64, none⟩,
      ⟨some "a", .str, some (.str "s")⟩], .unit⟩ fun _ => .ok .unit) _ hkeys
  have hvalues : (Filling.named [("b", .i64 1), ("a", .i32 5)]).values 0 [⟨some "a", .i32, none⟩,
      ⟨some "b", .i64, none⟩, ⟨some "a", .str, some (.str "s")⟩]
      = .ok [.i32 5, .i64 1, .str "s"] := by
    rw [values_named, if_pos (by simp [unknownNames])]
    rfl
  exact ⟨_, _, rfl, rfl, hkeys, horder _ (.swap _ _ _), hpositional _ hvalues⟩

end CallAdapter
