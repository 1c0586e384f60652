import CallAdapter.Proofs.Slots
import CallAdapter.Proofs.Widening

/-!
# Receiving an argument loses nothing

`Value.asArgument?` says how a procedure receives an argument and `Value.asSlot?` how the stack hands a
value on. The two differ in the changes of type that they allow, and the stack allows more of them. So
whatever can be received is handed on in the same way (`fit?_mono`), and what has been received stays
as it is from then on.

`Preserves` compares what is inside the wrappers of an argument with what is inside the wrappers of
what was received for it. The main theorem, `argument_lossless`, puts the laws together.

What is said about all types is proved by induction on the wrappers of a type
(`ValueType.wrapperInduction`); `fit?_plain_cases` and `fit?_nullable_cases` say what can happen to a
value at a type without and with a wrapper.
-/

namespace CallAdapter

open Value
open Binary (Single single double)

/-! ### Types by their wrappers -/

/-- Induction on the wrappers of a type. -/
theorem ValueType.wrapperInduction {motive : ValueType → Prop}
    (plain : ∀ t, t.underlying? = none → motive t)
    (nullable : ∀ t, motive t → motive (.nullable t)) : ∀ t, motive t
  | .nullable t => nullable t (wrapperInduction plain nullable t)
  | .unit | .bool | .u8 | .i16 | .i32 | .i64 | .f32 | .f64 => plain _ rfl
  | .str | .struct _ _ | .object | .reference _ => plain _ rfl

section Cases

variable {scalar : Value → ValueType → Option Value} {v w : Value} {t : ValueType}

theorem fit?_plain (ht : t.underlying? = none) : fit? scalar v t =
    if v.isInstance t then some v
    else if t.isValueType then scalar v t
    else if v.isAbsent then some .null
    else none := by
  cases t with
  | nullable => cases ht
  | _ => simp [fit?, ValueType.isValueType]

/-- At a type without a wrapper a value is left as it is, or an absent one becomes the null reference,
or the value changes its type. -/
theorem fit?_plain_cases (ht : t.underlying? = none) (h : fit? scalar v t = some w) :
    (v.isInstance t = true ∧ w = v) ∨
    (v.isInstance t = false ∧ t.isValueType = false ∧ v.isAbsent = true ∧ w = .null) ∨
    (v.isInstance t = false ∧ t.isValueType = true ∧ scalar v t = some w) := by
  rw [fit?_plain ht] at h
  grind

theorem fit?_nullable (hinst : v.isInstance (.nullable t) = false) (hv : v.isAbsent = false) :
    fit? scalar v (.nullable t) = (fit? scalar v t).map .present := by
  have hnull : v ≠ .null := by
    rintro rfl
    cases hv
  rw [fit?, if_neg (by simp [hinst])]
  exact hnull

/-- At a type with a wrapper a value is left as it is, or the null reference becomes the empty wrapper,
or the value is put into a slot of the inner type and wrapped. -/
theorem fit?_nullable_cases (h : fit? scalar v (.nullable t) = some w) :
    (v.isInstance (.nullable t) = true ∧ w = v) ∨ (v = .null ∧ w = .empty) ∨
    (v.isInstance (.nullable t) = false ∧ v.isAbsent = false ∧
      ∃ u, fit? scalar v t = some u ∧ w = .present u) := by
  cases hinst : v.isInstance (.nullable t) with
  | true =>
    rw [fit?_of_isInstance hinst] at h
    cases h
    exact .inl ⟨rfl, rfl⟩
  | false =>
    cases hv : v.isAbsent with
    | true =>
      -- The empty wrapper is an instance, so that this is the null reference.
      cases v with
      | null =>
        cases h
        exact .inr (.inl ⟨rfl, rfl⟩)
      | empty => cases hinst
      | _ => cases hv
    | false =>
      rw [fit?_nullable hinst hv] at h
      obtain ⟨u, hu, rfl⟩ := Option.map_eq_some_iff.mp h
      exact .inr (.inr ⟨rfl, rfl, u, hu, rfl⟩)

end Cases

/-! ### What has to be kept -/

/-- What is inside all wrappers around a value. -/
def Value.core : Value → Value
  | .present v => v.core
  | v => v

/-- The second value says what the first one does: they are the same, both absent, or the same number
in a type and a wider one. -/
inductive Preserves : Value → Value → Prop
  | same (v : Value) : Preserves v v
  | absent {v w : Value} : v.isAbsent = true → w.isAbsent = true → Preserves v w
  | integer {n : Int32} {n' : Int64} : n'.toInt = n.toInt → Preserves (.i32 n) (.i64 n')
  | real {x : Single} : (single.unpack x.word).Same (double.unpack x.toDouble.word) →
      Preserves (.f32 x) (.f64 x.toDouble)

theorem core_of_isAbsent {v : Value} (h : v.isAbsent = true) : v.core = v := by
  cases v with
  | present => cases h
  | _ => rfl

section Scalars

variable {scalar scalar' : Value → ValueType → Option Value} {v w : Value} {t : ValueType}

/-- With more changes of type allowed, a value still becomes what it became before. -/
theorem fit?_mono (hscalar : ∀ v t w, scalar v t = some w → scalar' v t = some w)
    (h : fit? scalar v t = some w) : fit? scalar' v t = some w := by
  induction t using ValueType.wrapperInduction generalizing w with
  | plain t ht =>
    rcases fit?_plain_cases ht h with ⟨hinst, rfl⟩ | ⟨hinst, ht', hv, rfl⟩ | ⟨hinst, ht', hw⟩
    · exact fit?_of_isInstance hinst
    · simp [fit?_plain ht, hinst, ht', hv]
    · simp [fit?_plain ht, hinst, ht', hscalar v t w hw]
  | nullable t ih =>
    rcases fit?_nullable_cases h with ⟨hinst, rfl⟩ | ⟨rfl, rfl⟩ | ⟨hinst, hv, u, hu, rfl⟩
    · exact fit?_of_isInstance hinst
    · rfl
    · rw [fit?_nullable hinst hv, ih hu, Option.map_some]

/-- What is put into a slot keeps what it says, if the changes of type do. -/
theorem preserves_of_fit? (hscalar : ∀ v t w, scalar v t = some w → Preserves v.core w.core)
    (h : fit? scalar v t = some w) : Preserves v.core w.core := by
  induction t using ValueType.wrapperInduction generalizing w with
  | plain t ht =>
    rcases fit?_plain_cases ht h with ⟨-, rfl⟩ | ⟨-, -, hv, rfl⟩ | ⟨-, -, hw⟩
    · exact .same _
    · rw [core_of_isAbsent hv]
      exact .absent hv rfl
    · exact hscalar v t w hw
  | nullable t ih =>
    rcases fit?_nullable_cases h with ⟨-, rfl⟩ | ⟨rfl, rfl⟩ | ⟨-, -, u, hu, rfl⟩
    · exact .same _
    · exact .absent rfl rfl
    · show Preserves v.core u.core
      exact ih hu

end Scalars

/-! ### Arguments -/

theorem reshape?_of_widen? (v : Value) (t : ValueType) (w : Value) (h : widen? v t = some w) :
    reshape? v t = some w := by
  unfold widen? at h
  split at h <;> cases h <;> rfl

theorem preserves_of_widen? (v : Value) (t : ValueType) (w : Value) (h : widen? v t = some w) :
    Preserves v.core w.core := by
  unfold widen? at h
  split at h
  · next n =>
    cases h
    exact .integer (Int32.toInt_toInt64 n)
  · next x =>
    cases h
    exact .real (Binary.same_toDouble x)
  · cases h

theorem asSlot?_of_asArgument? {v w : Value} {t : ValueType} (h : v.asArgument? t = some w) :
    v.asSlot? t = some w :=
  fit?_mono reshape?_of_widen? h

/-- **Receiving an argument loses nothing, happens once, and is what the stack does.** What is received
may stand in the slot of the parameter and is received there again as it is. The stack would have
handed on the same, and hands it on as it is. Inside all wrappers it is the argument, absent like
the argument, or the argument's number in a wider type. -/
theorem argument_lossless (v : Value) (t : ValueType) (w : Value) (h : v.asArgument? t = some w) :
    w.Fits t ∧ w.asArgument? t = some w ∧ v.asSlot? t = some w ∧ w.asSlot? t = some w ∧
      Preserves v.core w.core := by
  have hfits := fits_of_asArgument? h
  refine ⟨hfits, hfits.fit?_eq, asSlot?_of_asArgument? h, hfits.asSlot?_eq, ?_⟩
  exact preserves_of_fit? preserves_of_widen? h

/-- A wrapper around nothing is an object; it is received in one more wrapper. A number is received in
two wrappers and with twice the width. -/
theorem argument_lossless_wrapped :
    ((Value.present .null).asArgument? (.nullable .object) = some (.present (.present .null)) ∧
      Preserves (Value.present .null).core (Value.present (.present .null)).core) ∧
    (Value.i32 (-7)).asArgument? (.nullable (.nullable .i64)) = some (.present (.present (.i64 (-7)))) ∧
      Preserves (Value.i32 (-7)).core (Value.present (.present (.i64 (-7)))).core := by
  have hempty : (Value.present .null).asArgument? (.nullable .object)
      = some (.present (.present .null)) := rfl
  have hnumber : (Value.i32 (-7)).asArgument? (.nullable (.nullable .i64))
      = some (.present (.present (.i64 (-7)))) := rfl
  exact ⟨⟨hempty, (argument_lossless _ _ _ hempty).2.2.2.2⟩, hnumber,
    (argument_lossless _ _ _ hnumber).2.2.2.2⟩

end CallAdapter
