import CallAdapter.Proofs.Loading

/-!
# Which constants reach their parameter unchanged

Running the code of `loadConstant` leaves something on the stack, and the slot of the parameter
makes something of that. `Unchanged` says when this is what was asked for: an instance of the type as
it is, a bare value in a wrapper, and the zero value where there is no value.

There is one exception among all that `loadConstant` accepts. Truth values, bytes and 16-bit integers
lie on the stack as 32-bit integers, and only a slot of their own type turns them back. A nullable
wrapper of the top type has no such slot: its constructor takes the 32-bit integer for the value.
`loadConstant_unchanged_iff` says that nothing else is changed, and `loadConstant_boxed_byte` that a
byte then loses its sign as well.
-/

namespace CallAdapter

open Machine Value

def Value.isBare : Value → Bool
  | .null | .empty | .present _ => false
  | _ => true

/-- The stack holds the value as a 32-bit integer although it is none. -/
def Value.isShort : Value → Bool
  | .bool _ | .u8 _ | .i16 _ => true
  | _ => false

/-- What arrives at a parameter of type `t` is the constant `v` that was to be loaded for it. -/
structure Unchanged (v : Option Value) (t : ValueType) (arrived : Option Value) : Prop where
  kept : ∀ x, v = some x → x.isInstance t = true → arrived = some x
  wrapped : ∀ x u, v = some x → t = .nullable u → x.isBare = true → arrived = some (.present x)
  zero : (∀ x, v = some x → x.isAbsent = true) → arrived = some (t.zero?.getD .null)

theorem isAbsent_of_filter_eq_none {v : Option Value}
    (h : v.filter (fun v => !v.isAbsent) = none) {x : Value} (hx : v = some x) :
    x.isAbsent = true := by
  subst hx
  simpa using h

theorem stacked_eq_self_iff (v : Value) : v.stacked = v ↔ v.isShort = false := by
  cases v <;> simp [stacked, isShort]

theorem isShort_of_isAbsent {v : Value} (h : v.isAbsent = true) : v.unwrap.isShort = false := by
  cases v <;> cases h <;> rfl

theorem bare_or_present {v : Value} (h : v.isAbsent = false) :
    (v.isBare = true ∧ v.unwrap = v) ∨ ∃ w, v = .present w := by
  cases v with
  | null | empty => cases h
  | present w => exact .inr ⟨w, rfl⟩
  | _ => exact .inl ⟨rfl, rfl⟩

theorem isInstance_nullable_of_isBare {v : Value} (h : v.isBare = true) (t : ValueType) :
    v.isInstance (.nullable t) = false := by
  cases v with
  | empty | present => cases h
  | _ => rfl

section Accepted

variable {v : Option Value} {t : ValueType} {locals : Locals}
  {out : List (Instruction Callee) × Locals}

/-- For a constant that was accepted, `Unchanged` determines what arrives: one of its three clauses
applies, and where two apply they agree. -/
theorem LoadedBy.unchanged_iff (h : LoadedBy t locals v out) (arrived : Option Value) :
    Unchanged v t arrived ↔ arrived = some (t.received v) := by
  cases h with
  | absent hnone hsize =>
    have habsent := fun x => isAbsent_of_filter_eq_none hnone (x := x)
    rw [received_absent hnone, ← t.zero?_getD]
    constructor
    · intro h
      exact h.zero habsent
    · rintro rfl
      refine ⟨?_, ?_, fun _ => rfl⟩
      · -- The one absent value that is an instance is the empty wrapper, which is its zero value.
        intro x hx hinst
        have := habsent x hx
        cases x <;> cases this
        · rw [isInstance_null] at hinst
          cases hinst
        · cases t <;> cases hinst
          rfl
      · intro x u hx _ hbare
        have := habsent x hx
        cases x <;> cases this <;> cases hbare
  | @plain w i habsent hplain hinst hi =>
    rw [received_plain habsent hplain]
    constructor
    · intro h
      exact h.kept w rfl hinst
    · rintro rfl
      refine ⟨fun x hx _ => hx, ?_, ?_⟩
      · rintro x u _ rfl _
        cases hplain
      · intro hzero
        rw [hzero w rfl] at habsent
        cases habsent
  | @wrapped w u i habsent ht hinst hi =>
    subst ht
    rw [received_wrapped habsent]
    have hzero : ¬ ∀ x, some w = some x → x.isAbsent = true := by
      intro hall
      rw [hall w rfl] at habsent
      cases habsent
    -- A bare value arrives in a new wrapper, and a value that is in a wrapper arrives as it is.
    rcases bare_or_present habsent with ⟨hbare, hunwrap⟩ | ⟨y, rfl⟩
    · rw [hunwrap]
      constructor
      · intro h
        exact h.wrapped w u rfl rfl hbare
      · rintro rfl
        refine ⟨?_, ?_, fun hall => absurd hall hzero⟩
        · rintro x hx hnullable
          cases hx
          rw [isInstance_nullable_of_isBare hbare] at hnullable
          cases hnullable
        · rintro x u' hx _ _
          cases hx
          rfl
    · constructor
      · intro h
        exact h.kept _ rfl hinst
      · rintro rfl
        refine ⟨fun x hx _ => hx, ?_, fun hall => absurd hall hzero⟩
        rintro x u' hx _ hbare
        cases hx
        cases hbare

/-- What arrives differs from what should be received for short values in wrappers of the top type,
and for no others. -/
theorem LoadedBy.arrived_eq_received_iff (h : LoadedBy t locals v out)
    (hsimple : t.isSimple = true) :
    t.arrived v = t.received v ↔
      ¬ (t = .nullable .object ∧ ∃ x, v = some x ∧ x.unwrap.isShort = true) := by
  by_cases hobject : t = .nullable .object
  · subst hobject
    cases h with
    | absent hnone hsize =>
      rw [arrived_absent hnone, received_absent hnone]
      refine ⟨fun _ => ?_, fun _ => rfl⟩
      rintro ⟨-, x, hx, hshort⟩
      rw [isShort_of_isAbsent (isAbsent_of_filter_eq_none hnone hx)] at hshort
      cases hshort
    | plain _ hplain => cases hplain
    | @wrapped w u i habsent ht hinst hi =>
      cases ht
      rw [arrived_wrapped habsent, received_wrapped habsent, slotted, if_pos rfl,
        Value.present.injEq, stacked_eq_self_iff]
      simp
  · refine ⟨fun _ => fun hchanged => hobject hchanged.1, fun _ => ?_⟩
    exact h.arrived_eq_received hsimple hobject

end Accepted

/-- **Every constant that is accepted reaches its parameter unchanged, short values in wrappers of the
top type excepted.** The code of the constant can run in any frame that has the local slots asked for
so far. It pushes a value, and the slot of the parameter makes of it what was asked for exactly when
the constant is no truth value, byte or 16-bit integer for a nullable wrapper of the top type. -/
theorem loadConstant_unchanged_iff (c : Context) (v : Option Value) (t : ValueType)
    (locals locals' : Locals) (code : List (Instruction Callee))
    (h : loadConstant v t locals = .ok (code, locals')) (ps : List (Placed Link))
    (hps : ps.map Placed.instruction = linkCode code) (f : Frame)
    (hroom : locals'.size ≤ f.locals.length) :
    ∃ slots w, (steps c ps f).Gives (.ok (.next (Frame.pushValue { f with locals := slots } w))) ∧
      (Unchanged v t (w.asSlot? t) ↔
        ¬ (t = .nullable .object ∧ ∃ x, v = some x ∧ x.unwrap.isShort = true)) := by
  obtain ⟨hsimple, hloaded⟩ := loadedBy_of_loadConstant h
  obtain ⟨slots, -, -, hrun⟩ := steps_loadConstant c hloaded hps f hroom
  refine ⟨slots, loadedValue v t, hrun, ?_⟩
  rw [hloaded.asSlot?_loadedValue, hloaded.unchanged_iff, Option.some.injEq,
    hloaded.arrived_eq_received_iff hsimple]

/-- A byte above 127 lies on the stack as a negative integer and still arrives as the byte. -/
theorem loadConstant_unchanged_high_byte :
    ∃ w, (steps ⟨"g", .unit, 0⟩ [⟨0, ⟨.ldcI4S, .byte 200⟩⟩,
        ⟨2, ⟨.newobj, .method (Callee.wrapper .u8).link⟩⟩] ⟨[], [], []⟩).Gives
        (.ok (.next (Frame.pushValue ⟨[], [], []⟩ w))) ∧
      w.asSlot? (.nullable .u8) = some (.present (.u8 200)) := by
  obtain ⟨slots, w, hrun, hiff⟩ := loadConstant_unchanged_iff ⟨"g", .unit, 0⟩ (some (.u8 200))
    (.nullable .u8) .empty .empty _ rfl [⟨0, ⟨.ldcI4S, .byte 200⟩⟩,
    ⟨2, ⟨.newobj, .method (Callee.wrapper .u8).link⟩⟩] rfl ⟨[], [], []⟩ (by decide)
  have hunchanged := hiff.mpr (by simp)
  refine ⟨w, ?_, hunchanged.wrapped (.u8 200) .u8 rfl rfl rfl⟩
  obtain rfl : slots = [] := by
    have hframe := hrun .empty
    cases hframe
    rfl
  exact hrun

/-- The byte 200 is accepted for a nullable wrapper of the top type and arrives there as the 32-bit
integer -56. -/
theorem loadConstant_boxed_byte :
    ∃ code w, loadConstant (some (.u8 200)) (.nullable .object) .empty = .ok (code, .empty) ∧
      (steps ⟨"g", .unit, 0⟩ ((linkCode code).map (⟨0, ·⟩)) ⟨[], [], []⟩).Gives
        (.ok (.next (Frame.pushValue ⟨[], [], []⟩ w))) ∧
      w.asSlot? (.nullable .object) = some (.present (.i32 (-56))) ∧
      ¬ Unchanged (some (.u8 200)) (.nullable .object) (w.asSlot? (.nullable .object)) := by
  refine ⟨[⟨.ldcI4S, .byte 200⟩, ⟨.newobj, .method (.wrapper .object)⟩], .present (.i32 (-56)), rfl,
    fun s => rfl, rfl, ?_⟩
  intro h
  have hwrapped := h.wrapped (.u8 200) .object rfl rfl rfl
  cases hwrapped

end CallAdapter
