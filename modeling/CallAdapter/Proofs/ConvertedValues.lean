import CallAdapter.Proofs.Conversion

/-!
# Converted values

Conversion takes wrappers off a value and puts wrappers around it, in an order that depends on the
type, and what it does at the innermost place goes through numbers and texts. All that matters here is
what it can end with. At a type without a wrapper this is an instance of the type, or the null
reference if there was nothing inside the wrappers of the value (`convertPlain_cases`). At a type with
a wrapper the inner type decides (`convert_nullable_cases`).

So what has been converted is converted to itself (`convert_convert`), and it is an instance unless
nothing became the null reference (`isInstance_of_convert`). An absent value within a wrapper is the one
thing that could get in the way: it can become the null reference where a wrapper is made.
-/

namespace CallAdapter

open Value

variable {v w : Value} {t : ValueType}

/-! ### What conversion can end with -/

theorem isInstance_of_ofIntegral? {n : Int} (h : ofIntegral? n t = some w) :
    w.isInstance t = true := by
  unfold ofIntegral? at h
  split at h
  all_goals grind [isInstance]

/-- A bare value becomes an instance, or it was absent and becomes the null reference. -/
theorem convertBare?_cases (h : v.convertBare? t = some w) :
    w.isInstance t = true ∨ (v.isAbsent = true ∧ t.isValueType = false ∧ w = .null) := by
  cases t with
  | unit | struct | nullable => cases h
  | bool | f32 | f64 =>
    obtain ⟨x, -, rfl⟩ := Option.map_eq_some_iff.mp h
    exact .inl rfl
  | u8 | i16 | i32 | i64 =>
    obtain ⟨n, -, hn⟩ := Option.bind_eq_some_iff.mp h
    exact .inl (isInstance_of_ofIntegral? hn)
  | str =>
    cases v with
    | null =>
      cases h
      exact .inr ⟨rfl, rfl, rfl⟩
    | bool | u8 | i16 | i32 | i64 | f32 | f64 =>
      cases h
      exact .inl rfl
    | _ => cases h
  | object | reference =>
    obtain ⟨hv, hw⟩ := Option.ite_none_right_eq_some.mp h
    cases hw
    exact .inr ⟨hv, rfl, rfl⟩

/-- At a type without a wrapper, what is inside all wrappers of the value decides. -/
theorem convertPlain_cases (h : convertPlain t v = .ok w) :
    w.isInstance t = true ∨ (v.core.isAbsent = true ∧ t.isValueType = false ∧ w = .null) := by
  fun_induction convertPlain t v with
  | case1 v hinst =>
    cases h
    exact .inl hinst
  -- A wrapper is taken off, which does not change what is inside all of them.
  | case2 v hinst ih => exact ih h
  | case3 v hbare hinst =>
    cases h
    exact .inl hinst
  | case4 v hbare hinst u hu =>
    cases h
    have hcore : v.core = v := by
      cases v with
      | present v => exact absurd rfl (hbare v)
      | _ => rfl
    rw [hcore]
    exact convertBare?_cases hu
  | case5 => cases h

/-- At a type with a wrapper a value is left as it is, or the null reference becomes the empty wrapper,
or the value is converted to the inner type, without a wrapper of its own, and wrapped. -/
theorem convert_nullable_cases (h : v.convert (.nullable t) = .ok w) :
    (v.isInstance (.nullable t) = true ∧ w = v) ∨ (v = .null ∧ w = .empty) ∨
    (v.isAbsent = false ∧ ∃ u, v.unwrap.convert t = .ok u ∧ w = .present u) := by
  cases hinst : v.isInstance (.nullable t) with
  | true =>
    rw [convert_of_isInstance hinst] at h
    cases h
    exact .inl ⟨rfl, rfl⟩
  | false =>
    cases hv : v.isAbsent with
    | true =>
      -- The empty wrapper is an instance, so that this is the null reference.
      cases v with
      | null =>
        cases h
        exact .inr (.inl ⟨rfl, rfl⟩)
      | empty => cases hinst
      | _ => cases hv
    | false =>
      rw [convert_unwrap hinst hv] at h
      obtain ⟨u, hu, rfl⟩ := exists_of_map_eq_ok h
      exact .inr (.inr ⟨rfl, u, hu, rfl⟩)

/-! ### Converting again -/

theorem convert_null (ht : t.isValueType = false) : Value.null.convert t = .ok .null := by
  cases t with
  | str | object | reference => rfl
  | _ => cases ht

/-- What conversion gives is converted to itself. -/
theorem convert_convert (h : v.convert t = .ok w) : w.convert t = .ok w := by
  induction t using ValueType.wrapperInduction generalizing v w with
  | plain t ht =>
    rw [convert_plain ht] at h
    rcases convertPlain_cases h with hinst | ⟨-, hreference, rfl⟩
    · exact convert_of_isInstance hinst
    · exact convert_null hreference
  | nullable t ih =>
    rcases convert_nullable_cases h with ⟨hinst, rfl⟩ | ⟨rfl, rfl⟩ | ⟨-, u, hu, rfl⟩
    · exact convert_of_isInstance hinst
    · rfl
    · -- If the wrapper was put on by conversion, it comes off again and the inner value stays.
      cases hinst : (Value.present u).isInstance (.nullable t) with
      | true => exact convert_of_isInstance hinst
      | false =>
        have hagain : (Value.present u).unwrap.convert t = .ok u := ih hu
        rw [convert_unwrap hinst rfl, hagain]
        rfl

/-! ### Instances -/

/-- Without an absent value in a wrapper there is something inside the wrappers. -/
theorem isAbsent_core (h : v.isSolid = true) : v.core.isAbsent = v.isAbsent := by
  induction v using Value.core.induct with
  | case1 v ih =>
    rw [core, ih (isSolid_unwrap h), isAbsent_of_isSolid h]
    rfl
  | case2 v hbare =>
    rw [core]
    exact hbare

/-- What conversion gives is an instance, unless nothing becomes the null reference. -/
theorem isInstance_of_convert (hsolid : v.isSolid = true) (h : v.convert t = .ok w) :
    w.isInstance t = true ∨ (v.isAbsent = true ∧ t.isValueType = false ∧ w = .null) := by
  induction t using ValueType.wrapperInduction generalizing v w with
  | plain t ht =>
    rw [convert_plain ht] at h
    rw [← isAbsent_core hsolid]
    exact convertPlain_cases h
  | nullable t ih =>
    rcases convert_nullable_cases h with ⟨hinst, rfl⟩ | ⟨rfl, rfl⟩ | ⟨hv, u, hu, rfl⟩
    · exact .inl hinst
    · exact .inl rfl
    · -- What is wrapped was there before its own wrapper was taken off, and still is.
      rcases ih (isSolid_unwrap hsolid) hu with hinst | ⟨habsent, -, -⟩
      · exact .inl hinst
      · rw [isAbsent_unwrap hsolid hv] at habsent
        cases habsent

theorem reference_cases (h : t.isValueType = false) :
    t = .str ∨ t = .object ∨ ∃ name, t = .reference name := by
  cases t with
  | str => exact .inl rfl
  | object => exact .inr (.inl rfl)
  | reference name => exact .inr (.inr ⟨name, rfl⟩)
  | _ => cases h

/-- **Conversion is idempotent and well typed.** What a value is converted to is converted to itself. If
no wrapper around the value holds an absent value, it is an instance of the type, or else the value
was absent, the type is a reference type, and the value became the null reference. -/
theorem convert_idempotent (v : Value) (t : ValueType) (w : Value) (h : v.convert t = .ok w) :
    w.convert t = .ok w ∧
      (v.isSolid = true → w.isInstance t = true ∨
        (v.isAbsent = true ∧ (t = .str ∨ t = .object ∨ ∃ name, t = .reference name) ∧
          w = .null)) := by
  refine ⟨convert_convert h, fun hsolid => ?_⟩
  rcases isInstance_of_convert hsolid h with hinst | ⟨hv, ht, hw⟩
  · exact .inl hinst
  · exact .inr ⟨hv, reference_cases ht, hw⟩

/-- A number in two wrappers becomes a text in three, and an empty wrapper becomes the null reference. -/
theorem convert_idempotent_wrapped :
    ∃ v w t, v = Value.present (.present (.i16 (-3))) ∧
      t = ValueType.nullable (.nullable (.nullable .str)) ∧ v.convert t = .ok w ∧
      w.convert t = .ok w ∧ w.isInstance t = true ∧
      Value.empty.convert (.reference "C") = .ok .null ∧
      Value.null.convert (.reference "C") = .ok .null := by
  obtain ⟨v, hv⟩ : ∃ v, v = Value.present (.present (.i16 (-3))) := ⟨_, rfl⟩
  obtain ⟨t, ht⟩ : ∃ t, t = ValueType.nullable (.nullable (.nullable .str)) := ⟨_, rfl⟩
  have hnumber : v.convert t = .ok (.present (.present (.present (.str "-3")))) := by
    rw [hv, ht]
    rfl
  have hnothing : Value.empty.convert (.reference "C") = .ok .null := rfl
  obtain ⟨hagain, htyped⟩ := convert_idempotent v t _ hnumber
  refine ⟨v, _, t, hv, ht, hnumber, hagain, ?_, hnothing, (convert_idempotent _ _ _ hnothing).1⟩
  rcases htyped (by rw [hv]; rfl) with hinst | ⟨habsent, -, -⟩
  · exact hinst
  · rw [hv] at habsent
    cases habsent

-- The null reference in a wrapper is no text, and stays where it is.
example : (Value.present .null).convert (.nullable .str) = .ok (.present .null) ∧
    (Value.present .null).isInstance (.nullable .str) = false :=
  ⟨rfl, rfl⟩

end CallAdapter
