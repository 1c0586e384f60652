import CallAdapter.Proofs.Outcome

/-!
# What stands in a slot stays there

`Value.Fits v t` says that `v` may stand in a slot of type `t`: it is an instance, or the null
reference in a slot of a reference type. Everything that is put into a slot fits it afterwards
(`fits_of_asArgument?`, `fits_of_asSlot?`), and what fits a slot is left alone when it is put
there again (`Fits.fit?_eq`). So a value that a procedure has received can be handed on through
slots of the same type as often as one likes.

`asSlot?_eq_none_iff` says when a received value can be handed on to a slot of another type that
is assignable from its own.

For a whole row of values and slots, `List.zipWith` lists what each value becomes; `fitAll` succeeds
if all of them become something (`fitAll_of_zipWith`) and else reports the first that does not
(`fitAll_eq_error`).
-/

namespace CallAdapter

open Value

/-- The value may stand in a slot of the type. -/
def Value.Fits (v : Value) (t : ValueType) : Prop :=
  v.isInstance t = true ∨ v = .null ∧ t.isValueType = false

variable {scalar : Value → ValueType → Option Value}

/-! ### Putting a value into a slot -/

theorem fit?_of_isInstance {v : Value} {t : ValueType} (h : v.isInstance t = true) :
    fit? scalar v t = some v := by
  cases t <;> simp [fit?, h]

theorem isInstance_null (t : ValueType) : Value.null.isInstance t = false := by
  cases t <;> rfl

/-- What fits a slot is left as it is. -/
theorem Value.Fits.fit?_eq {v : Value} {t : ValueType} (h : v.Fits t) :
    fit? scalar v t = some v := by
  rcases h with h | ⟨rfl, h⟩
  · exact fit?_of_isInstance h
  · cases t with
    | str | object | reference => simp [fit?, isInstance_null, isAbsent]
    | _ => cases h

theorem Value.Fits.asSlot?_eq {v : Value} {t : ValueType} (h : v.Fits t) : v.asSlot? t = some v :=
  h.fit?_eq

/-- A value that is there ends up as an instance. The change of type must give instances. -/
theorem isInstance_of_fit? (hscalar : ∀ v t w, scalar v t = some w → w.isInstance t = true)
    {v : Value} (hv : v.isAbsent = false) :
    ∀ {t : ValueType} {w : Value}, fit? scalar v t = some w → w.isInstance t = true
  | .nullable t, w, h => by
    unfold fit? at h
    split at h
    · next hinst =>
      cases h
      exact hinst
    · split at h
      · cases hv
      · obtain ⟨w, hw, rfl⟩ := Option.map_eq_some_iff.mp h
        show w.isInstance t = true
        exact isInstance_of_fit? hscalar hv hw
  | .str, w, h | .object, w, h | .reference _, w, h => by
    simp only [fit?, hv, Bool.false_eq_true, if_false] at h
    split at h
    · next hinst =>
      cases h
      exact hinst
    · cases h
  | .unit, w, h | .bool, w, h | .u8, w, h | .i16, w, h | .i32, w, h | .i64, w, h
  | .f32, w, h | .f64, w, h | .struct _ _, w, h => by
    simp only [fit?] at h
    split at h
    · next hinst =>
      cases h
      exact hinst
    · exact hscalar _ _ _ h

/-- Whatever is put into a slot fits it. -/
theorem fits_of_fit? (hscalar : ∀ v t w, scalar v t = some w → w.isInstance t = true)
    {v w : Value} {t : ValueType} (h : fit? scalar v t = some w) : w.Fits t := by
  cases hv : v.isAbsent with
  | false => exact .inl (isInstance_of_fit? hscalar hv h)
  | true =>
    cases t with
    | nullable t =>
      -- An absent value becomes, or is, the empty wrapper.
      cases v <;> cases hv <;> simp [fit?, isInstance] at h <;> subst h <;> exact .inl rfl
    | str | object | reference =>
      simp only [fit?, hv, if_true] at h
      split at h
      · next hinst =>
        cases h
        exact .inl hinst
      · cases h
        exact .inr ⟨rfl, rfl⟩
    | _ =>
      simp only [fit?] at h
      split at h
      · next hinst =>
        cases h
        exact .inl hinst
      · exact .inl (hscalar _ _ _ h)

theorem isInstance_of_widen? (v : Value) (t : ValueType) (w : Value) (h : widen? v t = some w) :
    w.isInstance t = true := by
  unfold widen? at h
  split at h <;> cases h <;> rfl

theorem isInstance_of_reshape? (v : Value) (t : ValueType) (w : Value)
    (h : reshape? v t = some w) : w.isInstance t = true := by
  unfold reshape? at h
  split at h
  all_goals first
    | (cases h; rfl)
    | exact isInstance_of_widen? _ _ _ h

theorem fits_of_asArgument? {v w : Value} {t : ValueType} (h : v.asArgument? t = some w) :
    w.Fits t :=
  fits_of_fit? isInstance_of_widen? h

theorem fits_of_asSlot? {v w : Value} {t : ValueType} (h : v.asSlot? t = some w) : w.Fits t :=
  fits_of_fit? isInstance_of_reshape? h

/-! ### Handing a value on to another slot -/

/-- A wrapper takes whatever stands in a slot of the inner type. -/
theorem Value.Fits.asSlot?_nullable {v : Value} {t : ValueType} (h : v.Fits t) :
    ∃ w, v.asSlot? (.nullable t) = some w := by
  by_cases hinst : v.isInstance (.nullable t) = true
  · exact ⟨v, fit?_of_isInstance hinst⟩
  · unfold asSlot? fit?
    rw [if_neg hinst]
    split
    · exact ⟨.empty, rfl⟩
    · rw [h.fit?_eq]
      exact ⟨.present v, rfl⟩

/-- The top type takes everything but the unit value. -/
theorem asSlot?_object_eq_none_iff (v : Value) : v.asSlot? .object = none ↔ v = .unit := by
  cases v <;> simp [asSlot?, fit?, isInstance, isAbsent]

theorem Value.Fits.eq_unit_iff {v : Value} {t : ValueType} (h : v.Fits t) :
    v = .unit ↔ t = .unit := by
  rcases h with h | ⟨rfl, h⟩
  · constructor
    · rintro rfl
      cases t <;> first
        | rfl
        | cases h
    · rintro rfl
      cases v <;> first
        | rfl
        | cases h
  · constructor
    · intro hv
      cases hv
    · rintro rfl
      cases h

/-- A value that stands in a slot can be handed on to every slot that is assignable from it, save
for the unit value, which is no instance of the top type. -/
theorem asSlot?_eq_none_iff {v : Value} {s t : ValueType} (hv : v.Fits s)
    (hassign : t.isAssignableFrom s = true) :
    v.asSlot? t = none ↔ s = .unit ∧ t = .object := by
  -- The top type is where the unit value gets stuck; elsewhere something is always received.
  by_cases hobject : t = .object
  · subst hobject
    rw [asSlot?_object_eq_none_iff, hv.eq_unit_iff]
    simp
  · suffices hsome : ∃ w, v.asSlot? t = some w by
      obtain ⟨w, hw⟩ := hsome
      simp [hw, hobject]
    by_cases hsame : t = s
    · subst hsame
      exact ⟨v, hv.asSlot?_eq⟩
    · cases t with
      | nullable u =>
        obtain rfl : u = s := by simpa [ValueType.isAssignableFrom, hsame] using hassign
        exact hv.asSlot?_nullable
      | object => exact absurd rfl hobject
      | _ => simp [ValueType.isAssignableFrom, hsame] at hassign

/-! ### Rows of slots -/

section Rows

variable {fit : Value → ValueType → Option Value} {procedure : String}

/-- Values are put into a row of slots one by one. -/
theorem fitAll_of_zipWith {index : Nat} {ts : List ValueType} {vs ws : List Value}
    (h : List.zipWith fit vs ts = ws.map some) : fitAll fit procedure index ts vs = .ok ws := by
  induction ts generalizing index vs ws with
  | nil =>
    rw [List.zipWith_nil_right] at h
    obtain rfl := List.map_eq_nil_iff.mp h.symm
    rfl
  | cons t ts ih =>
    cases vs with
    | nil =>
      obtain rfl := List.map_eq_nil_iff.mp h.symm
      rfl
    | cons v vs =>
      obtain ⟨w, ws, rfl, hw, hws⟩ := List.map_eq_cons_iff.mp h.symm
      simp only [fitAll, ← hw, ih hws.symm, Except.map]

theorem zipWith_of_fitAll {index : Nat} {ts : List ValueType} {vs ws : List Value}
    (h : fitAll fit procedure index ts vs = .ok ws) : List.zipWith fit vs ts = ws.map some := by
  induction ts generalizing index vs ws with
  | nil =>
    cases h
    simp
  | cons t ts ih =>
    cases vs with
    | nil =>
      cases h
      rfl
    | cons v vs =>
      rw [fitAll] at h
      split at h
      · next w hw =>
        obtain ⟨rest, hrest, rfl⟩ := exists_of_map_eq_ok h
        rw [List.zipWith_cons_cons, hw, ih hrest, List.map_cons]
      · cases h

/-- The first value that does not fit its slot is reported with its index. -/
theorem fitAll_eq_error (index : Nat) {i : Nat} {ts : List ValueType} {vs : List Value}
    (hmisfit : (List.zipWith fit vs ts)[i]? = some none)
    (hfirst : ∀ j < i, (List.zipWith fit vs ts)[j]? ≠ some none) :
    ∃ v t, vs[i]? = some v ∧ ts[i]? = some t ∧
      fitAll fit procedure index ts vs
        = .error (.argumentType procedure (index + i) t v.typeName) := by
  induction ts generalizing index i vs with
  | nil => simp at hmisfit
  | cons t ts ih =>
    cases vs with
    | nil => simp at hmisfit
    | cons v vs =>
      cases i with
      | zero =>
        have hnone : fit v t = none := by simpa using hmisfit
        exact ⟨v, t, rfl, rfl, by simp [fitAll, hnone]⟩
      | succ i =>
        -- The head fits, because the misfit is the first one, and the indices go up by one.
        obtain ⟨w, hw⟩ : ∃ w, fit v t = some w := by
          have hhead := hfirst 0 (Nat.succ_pos i)
          exact Option.ne_none_iff_exists'.mp (by simpa using hhead)
        obtain ⟨v', t', hv', ht', hrest⟩ := ih (index + 1) (i := i) hmisfit
          fun j hj => hfirst (j + 1) (Nat.succ_lt_succ hj)
        refine ⟨v', t', hv', ht', ?_⟩
        rw [fitAll, hw]
        simp only [hrest, Except.map]
        congr 2
        omega

/-- There is no other error. -/
theorem exists_of_fitAll_error {index : Nat} {ts : List ValueType} {vs : List Value}
    {e : RunError} (h : fitAll fit procedure index ts vs = .error e) :
    ∃ i t actual, e = .argumentType procedure i t actual := by
  induction ts generalizing index vs with
  | nil => cases h
  | cons t ts ih =>
    cases vs with
    | nil => cases h
    | cons v vs =>
      rw [fitAll] at h
      split at h
      · cases hrest : fitAll fit procedure (index + 1) ts vs with
        | ok ws =>
          rw [hrest] at h
          cases h
        | error e' =>
          rw [hrest] at h
          cases h
          exact ih hrest
      · cases h
        exact ⟨_, _, _, rfl⟩

theorem map_some_or_first_none {α : Type} (l : List (Option α)) :
    (∃ as : List α, l = as.map some) ∨
      ∃ i : Nat, l[i]? = some none ∧ ∀ j < i, l[j]? ≠ some none := by
  induction l with
  | nil => exact .inl ⟨[], rfl⟩
  | cons o l ih =>
    cases o with
    | none => exact .inr ⟨0, rfl, by simp⟩
    | some a =>
      rcases ih with ⟨as, rfl⟩ | ⟨i, hi, hfirst⟩
      · exact .inl ⟨a :: as, rfl⟩
      · refine .inr ⟨i + 1, hi, fun j hj => ?_⟩
        cases j with
        | zero => simp
        | succ j => exact hfirst j (Nat.lt_of_succ_lt_succ hj)

/-- What is reported is the first value that does not fit its slot. -/
theorem fitAll_error_iff (procedure : String) {ts : List ValueType} {vs : List Value} {i : Nat} :
    (∃ t actual, fitAll fit procedure 0 ts vs = .error (.argumentType procedure i t actual)) ↔
      (List.zipWith fit vs ts)[i]? = some none ∧
        ∀ j < i, (List.zipWith fit vs ts)[j]? ≠ some none := by
  constructor
  · rintro ⟨t, actual, herror⟩
    rcases map_some_or_first_none (List.zipWith fit vs ts) with ⟨ws, hws⟩ | ⟨k, hk, hfirst⟩
    · rw [fitAll_of_zipWith hws] at herror
      cases herror
    · obtain ⟨v, t', -, -, hreported⟩ := fitAll_eq_error 0 hk hfirst
      rw [hreported, Nat.zero_add] at herror
      cases herror
      exact ⟨hk, hfirst⟩
  · rintro ⟨hi, hfirst⟩
    obtain ⟨v, t, -, -, hreported⟩ := fitAll_eq_error 0 hi hfirst
    rw [Nat.zero_add] at hreported
    exact ⟨t, v.typeName, hreported⟩

/-- If the last values fit their slots, the first ones decide. -/
theorem fitAll_cases (procedure : String) {ts : List ValueType} {vs back : List Value}
    {front : List (Option Value)} (h : List.zipWith fit vs ts = front ++ back.map some) :
    (∃ ws, front = ws.map some ∧ fitAll fit procedure 0 ts vs = .ok (ws ++ back)) ∨
    (∃ i v t, front[i]? = some none ∧ (∀ j < i, front[j]? ≠ some none) ∧ vs[i]? = some v ∧
      ts[i]? = some t ∧
      fitAll fit procedure 0 ts vs = .error (.argumentType procedure i t v.typeName)) := by
  rcases map_some_or_first_none front with ⟨ws, rfl⟩ | ⟨i, hi, hfirst⟩
  · rw [← List.map_append] at h
    exact .inl ⟨ws, rfl, fitAll_of_zipWith h⟩
  · obtain ⟨hlt, -⟩ := List.getElem?_eq_some_iff.mp hi
    have hfront : ∀ j ≤ i, (List.zipWith fit vs ts)[j]? = front[j]? := by
      intro j hj
      rw [h, List.getElem?_append_left (hj.trans_lt hlt)]
    obtain ⟨v, t, hv, ht, herror⟩ := fitAll_eq_error 0 ((hfront i le_rfl).trans hi)
      fun j hj => hfront j hj.le ▸ hfirst j hj
    rw [Nat.zero_add] at herror
    exact .inr ⟨i, v, t, hi, hfirst, hv, ht, herror⟩

theorem Signature.receive_eq_ok {s : Signature} {args received : List Value}
    (h : s.receive procedure args = .ok received) :
    args.length = s.arity ∧ List.zipWith asArgument? args s.types = received.map some := by
  unfold Signature.receive at h
  split at h
  · next hlen => exact ⟨hlen, zipWith_of_fitAll h⟩
  · cases h

/-- What was put into slots may stand there. -/
theorem forall₂_fits_of_zipWith (hfit : ∀ v t w, fit v t = some w → w.Fits t)
    {params : List Parameter} {args received : List Value} (hlen : args.length = params.length)
    (h : List.zipWith fit args (params.map Parameter.type) = received.map some) :
    List.Forall₂ (fun v p => v.Fits p.type) received params := by
  induction params generalizing args received with
  | nil =>
    rw [List.map_nil, List.zipWith_nil_right] at h
    obtain rfl := List.map_eq_nil_iff.mp h.symm
    exact .nil
  | cons p params ih =>
    cases args with
    | nil => cases hlen
    | cons a args =>
      obtain ⟨v, received, rfl, hv, hrest⟩ := List.map_eq_cons_iff.mp h.symm
      exact .cons (hfit a p.type v hv.symm) (ih (Nat.succ.inj hlen) hrest.symm)

theorem fits_of_receive {s : Signature} {args received : List Value}
    (h : s.receive procedure args = .ok received) :
    List.Forall₂ (fun v p => v.Fits p.type) received s.params := by
  obtain ⟨hlen, hzip⟩ := Signature.receive_eq_ok h
  exact forall₂_fits_of_zipWith (fun _ _ _ => fits_of_asArgument?) hlen hzip

theorem zipWith_of_fits {params : List Parameter} {vs : List Value}
    (h : List.Forall₂ (fun v p => v.Fits p.type) vs params) :
    List.zipWith (fit? scalar) vs (params.map Parameter.type) = vs.map some := by
  induction h with
  | nil => rfl
  | cons hv _ ih => rw [List.map_cons, List.zipWith_cons_cons, hv.fit?_eq, ih, List.map_cons]

/-- Arguments that fit are received as they are. -/
theorem receive_of_fits {s : Signature} {vs : List Value}
    (h : List.Forall₂ (fun v p => v.Fits p.type) vs s.params) :
    s.receive procedure vs = .ok vs := by
  have hlen : vs.length = s.arity := h.length_eq
  rw [Signature.receive, if_pos hlen]
  exact fitAll_of_zipWith (zipWith_of_fits h)

end Rows

end CallAdapter
