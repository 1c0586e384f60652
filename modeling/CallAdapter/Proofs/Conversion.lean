import CallAdapter.Proofs.Admission
import CallAdapter.Proofs.Agreement

/-!
# What can be passed and what can be fixed

A value reaches a parameter as an argument, which is received, or as a binding, which is converted. The
two are written apart, and conversion allows more changes of type. One would expect that an argument
which is received can also be fixed, with the same effect. `convert_of_argument` says when this is so,
for values without an absent value in a wrapper.

There are two kinds of exceptions (`Value.Unfixable`). An empty wrapper does not convert to a text,
although it does convert to the other reference types, and the null reference to all of them. And
where conversion puts a value into a wrapper it takes one off first, which may uncover the unit value;
the top type does not take that, while it takes the unit value in a wrapper.
-/

namespace CallAdapter

open Value

/-! ### Wrappers -/

/-- No wrapper around the value holds an absent value. -/
def Value.isSolid : Value → Bool
  | .present v => !v.isAbsent && v.isSolid
  | _ => true

/-- The number of wrappers around a value. -/
def Value.wrappers : Value → Nat
  | .present v => v.wrappers + 1
  | _ => 0

def ValueType.wrappers : ValueType → Nat
  | .nullable t => t.wrappers + 1
  | _ => 0

/-- The type inside all wrappers. -/
def ValueType.core : ValueType → ValueType
  | .nullable t => t.core
  | t => t

/-- The unit value, in no more wrappers than there are around the top type. -/
def Value.IsHiddenUnit (v : Value) (t : ValueType) : Prop :=
  v.core = .unit ∧ t.core = .object ∧ v.wrappers ≤ t.wrappers

/-- What may be received for a parameter of the type but is not converted to it: an empty wrapper for a
text, and the unit value in wrappers. -/
def Value.Unfixable (v : Value) (t : ValueType) : Prop :=
  v = .empty ∧ t = .str ∨ v.IsHiddenUnit t

section Solid

variable {v : Value}

theorem isAbsent_of_isSolid (h : (Value.present v).isSolid = true) : v.isAbsent = false := by
  simp only [isSolid, Bool.and_eq_true, Bool.not_eq_true'] at h
  exact h.1

theorem isSolid_unwrap (h : v.isSolid = true) : v.unwrap.isSolid = true := by
  cases v with
  | present v =>
    simp only [isSolid, Bool.and_eq_true] at h
    exact h.2
  | _ => exact h

/-- Taking a wrapper off does not lead to nothing. -/
theorem isAbsent_unwrap (h : v.isSolid = true) (hv : v.isAbsent = false) :
    v.unwrap.isAbsent = false := by
  cases v with
  | present v => exact isAbsent_of_isSolid h
  | _ => exact hv

end Solid

namespace Value.IsHiddenUnit

variable {v : Value} {t : ValueType}

/-- At a type without a wrapper there is nothing to hide in. -/
theorem of_plain (ht : t.underlying? = none) (h : v.IsHiddenUnit t) : v = .unit ∧ t = .object := by
  obtain ⟨hcore, hobject, hle⟩ := h
  cases t with
  | object =>
    cases v with
    | present => cases hle
    | _ => exact ⟨hcore, rfl⟩
  | nullable => cases ht
  | _ => cases hobject

/-- A wrapper is taken off the type, and off the value if it has one. -/
theorem unwrap (h : v.IsHiddenUnit (.nullable t)) : v.unwrap.IsHiddenUnit t := by
  obtain ⟨hcore, hobject, hle⟩ := h
  cases v with
  | present v => exact ⟨hcore, hobject, Nat.le_of_succ_le_succ hle⟩
  | unit => exact ⟨rfl, hobject, Nat.zero_le _⟩
  | _ => cases hcore

theorem of_unwrap (h : v.unwrap.IsHiddenUnit t) : v.IsHiddenUnit (.nullable t) := by
  obtain ⟨hcore, hobject, hle⟩ := h
  cases v with
  | present v => exact ⟨hcore, hobject, Nat.succ_le_succ hle⟩
  | _ => exact ⟨hcore, hobject, Nat.le_succ_of_le hle⟩

theorem nullable (h : v.IsHiddenUnit t) : v.IsHiddenUnit (.nullable t) :=
  ⟨h.1, h.2.1, Nat.le_succ_of_le h.2.2⟩

theorem isAbsent_eq (h : v.IsHiddenUnit t) : v.isAbsent = false := by
  cases v with
  | null | empty => cases h.1
  | _ => rfl

theorem isInstance_eq (h : v.IsHiddenUnit t) : v.isInstance t = false := by
  induction t using ValueType.wrapperInduction generalizing v with
  | plain t ht =>
    obtain ⟨rfl, rfl⟩ := h.of_plain ht
    rfl
  | nullable t ih =>
    cases v with
    | present v => exact ih h.unwrap
    | empty => cases h.1
    | _ => rfl

end Value.IsHiddenUnit

/-! ### Conversion by wrappers -/

section Convert

variable {v w : Value} {t : ValueType}

theorem convert_plain (ht : t.underlying? = none) : v.convert t = convertPlain t v := by
  cases t with
  | nullable => cases ht
  | _ => rfl

/-- A value that has to be wrapped is converted without its own wrapper. -/
theorem convert_unwrap (hinst : v.isInstance (.nullable t) = false) (hv : v.isAbsent = false) :
    v.convert (.nullable t) = (v.unwrap.convert t).map .present := by
  rw [convert, if_neg (by simp [hinst]), if_neg (by simp [hv])]

/-- A hidden unit value is uncovered and refused. -/
theorem Value.IsHiddenUnit.convert_eq (h : v.IsHiddenUnit t) :
    ∃ shown expected, v.convert t = .error (.valueMismatch shown expected) := by
  induction t using ValueType.wrapperInduction generalizing v with
  | plain t ht =>
    obtain ⟨rfl, rfl⟩ := h.of_plain ht
    exact ⟨_, _, rfl⟩
  | nullable t ih =>
    obtain ⟨shown, expected, herror⟩ := ih h.unwrap
    rw [convert_unwrap h.isInstance_eq h.isAbsent_eq, herror]
    exact ⟨shown, expected, rfl⟩

/-- Every 32-bit integer is in the range of the 64-bit integers. -/
theorem ofIntegral?_widen (n : Int32) : ofIntegral? n.toInt .i64 = some (.i64 n.toInt64) := by
  have hlow : Int64.minValue.toInt ≤ n.toInt := by
    have := n.le_toInt
    simp only [Int64.toInt_minValue]
    omega
  have hhigh : n.toInt ≤ Int64.maxValue.toInt := by
    have := n.toInt_lt
    simp only [Int64.toInt_maxValue]
    omega
  rw [ofIntegral?, if_pos ⟨hlow, hhigh⟩, Int64.ofInt_int32ToInt]

/-- A change of type that loses nothing is a conversion. -/
theorem convert_of_widen? (h : widen? v t = some w) : v.convert t = .ok w := by
  unfold widen? at h
  split at h
  · next n =>
    cases h
    have hbare : (Value.i32 n).convertBare? .i64 = some (.i64 n.toInt64) := ofIntegral?_widen n
    have hplain : convertPlain .i64 (.i32 n) = .ok (.i64 n.toInt64) := by
      simp [convertPlain, isInstance, hbare]
    rw [convert_plain rfl, hplain]
  · cases h
    rfl
  · cases h

/-- Without a wrapper, only the top type takes a value in a wrapper. -/
theorem eq_object_of_isInstance_present (ht : t.underlying? = none)
    (h : (Value.present v).isInstance t = true) : t = .object := by
  cases t with
  | object => rfl
  | nullable => cases ht
  | _ => cases h

/-- The top type takes everything that is there, save for the unit value. -/
theorem eq_unit_of_isInstance_object (hv : v.isAbsent = false) (h : v.isInstance .object = false) :
    v = .unit := by
  cases v with
  | unit => rfl
  | null | empty => cases hv
  | _ => cases h

/-- Where a value is no instance without its wrapper, the wrapper makes no difference to how it is
received, unless it hides the unit value. -/
theorem fit?_unwrap {x : Value} (hx : x.isAbsent = false) (hinst : x.isInstance t = false)
    (hunit : ¬ (Value.present x).IsHiddenUnit (.nullable t))
    (h : fit? widen? (.present x) t = some w) : fit? widen? x t = some w := by
  induction t using ValueType.wrapperInduction generalizing w with
  | plain t ht =>
    rcases fit?_plain_cases ht h with ⟨hpresent, -⟩ | ⟨-, -, habsent, -⟩ | ⟨-, -, hw⟩
    · -- The one type that takes the wrapper but not what is in it is the top type.
      obtain rfl := eq_object_of_isInstance_present ht hpresent
      obtain rfl := eq_unit_of_isInstance_object hx hinst
      exact absurd ⟨rfl, rfl, le_rfl⟩ hunit
    · cases habsent
    · cases hw
  | nullable t ih =>
    rw [fit?_nullable hinst hx]
    rcases fit?_nullable_cases h with ⟨hpresent, rfl⟩ | ⟨hnull, -⟩ | ⟨hpresent, -, u, hu, rfl⟩
    · rw [fit?_of_isInstance (show x.isInstance t = true from hpresent), Option.map_some]
    · cases hnull
    · rw [ih hpresent (fun hhidden => hunit hhidden.nullable) hu, Option.map_some]

end Convert

/-! ### The main theorem -/

/-- What is received is also converted, and to the same, apart from the exceptions. -/
theorem convert_of_fit? {v w : Value} {t : ValueType} (hsolid : v.isSolid = true)
    (hfixable : ¬ v.Unfixable t) (h : fit? widen? v t = some w) : v.convert t = .ok w := by
  induction t using ValueType.wrapperInduction generalizing v w with
  | plain t ht =>
    rcases fit?_plain_cases ht h with ⟨hinst, rfl⟩ | ⟨hinst, ht', hv, rfl⟩ | ⟨-, -, hw⟩
    · exact convert_of_isInstance hinst
    · -- The value is absent. Only a text tells the empty wrapper from the null reference.
      cases t with
      | str =>
        cases v with
        | null => rfl
        | empty => exact absurd (.inl ⟨rfl, rfl⟩) hfixable
        | _ => cases hv
      | object | reference =>
        cases v with
        | null | empty => rfl
        | _ => cases hv
      | _ => cases ht'
    · exact convert_of_widen? hw
  | nullable t ih =>
    rcases fit?_nullable_cases h with ⟨hinst, rfl⟩ | ⟨rfl, rfl⟩ | ⟨hinst, hv, u, hu, rfl⟩
    · exact convert_of_isInstance hinst
    · rfl
    · -- The value has to be wrapped. Conversion takes a wrapper off first and goes on with the rest.
      have hhidden : ¬ v.IsHiddenUnit (.nullable t) := fun hhidden => hfixable (.inr hhidden)
      have hunwrap : fit? widen? v.unwrap t = some u := by
        rcases bare_or_present hv with ⟨-, heq⟩ | ⟨x, rfl⟩
        · rwa [heq]
        · exact fit?_unwrap (isAbsent_of_isSolid hsolid) hinst hhidden hu
      have hfixable' : ¬ v.unwrap.Unfixable t := by
        rintro (⟨hempty, -⟩ | hinner)
        · have habsent := isAbsent_unwrap hsolid hv
          rw [hempty] at habsent
          cases habsent
        · exact hhidden hinner.of_unwrap
      rw [convert_unwrap hinst hv, ih (isSolid_unwrap hsolid) hfixable' hunwrap]
      rfl

theorem Value.Unfixable.convert_eq {v : Value} {t : ValueType} (h : v.Unfixable t) :
    ∃ shown expected, v.convert t = .error (.valueMismatch shown expected) := by
  rcases h with ⟨rfl, rfl⟩ | hhidden
  · exact ⟨_, _, rfl⟩
  · exact hhidden.convert_eq

/-- **Whatever can be passed can be fixed, with two exceptions.** If a value without an absent value in
a wrapper is received for a parameter of some type, it converts to that type, and to what was
received, unless it is an empty wrapper for a text or hides the unit value in wrappers of the top
type. In these cases it does not convert at all. -/
theorem convert_of_argument (v : Value) (t : ValueType) (w : Value) (hsolid : v.isSolid = true)
    (h : v.asArgument? t = some w) :
    (v.convert t = .ok w ↔ ¬ v.Unfixable t) ∧
      (v.Unfixable t → ∃ shown expected, v.convert t = .error (.valueMismatch shown expected)) := by
  refine ⟨⟨?_, fun hfixable => convert_of_fit? hsolid hfixable h⟩, Unfixable.convert_eq⟩
  intro hconvert hunfixable
  obtain ⟨shown, expected, herror⟩ := hunfixable.convert_eq
  rw [hconvert] at herror
  cases herror

/-- A number in a wrapper is received, in one more wrapper, and converts to that. The unit value in a
wrapper is received in the same way, but it does not convert. -/
theorem convert_of_argument_wrapped :
    (Value.present (.i32 5)).asArgument? (.nullable (.nullable .i32))
        = some (.present (.present (.i32 5))) ∧
      (Value.present (.i32 5)).convert (.nullable (.nullable .i32))
        = .ok (.present (.present (.i32 5))) ∧
      (Value.present .unit).asArgument? (.nullable .object) = some (.present (.present .unit)) ∧
      ∃ shown expected, (Value.present .unit).convert (.nullable .object)
        = .error (.valueMismatch shown expected) := by
  have hnumber : (Value.present (.i32 5)).asArgument? (.nullable (.nullable .i32))
      = some (.present (.present (.i32 5))) := rfl
  have hunit : (Value.present .unit).asArgument? (.nullable .object)
      = some (.present (.present .unit)) := rfl
  refine ⟨hnumber, (convert_of_argument _ _ _ rfl hnumber).1.mpr ?_, hunit,
    (convert_of_argument _ _ _ rfl hunit).2 (.inr ⟨rfl, rfl, by decide⟩)⟩
  rintro (⟨hempty, -⟩ | ⟨hcore, -, -⟩)
  · cases hempty
  · cases hcore

/-- An empty wrapper is received for a text, as the null reference, but it does not convert to a
text. -/
theorem convert_empty_text :
    Value.empty.isSolid = true ∧ Value.empty.asArgument? .str = some .null ∧
      Value.empty.convert .str = .error (.valueMismatch "null" .str) :=
  ⟨rfl, rfl, rfl⟩

end CallAdapter
