import CallAdapter.Adapt.Constant
import CallAdapter.Proofs.Running
import CallAdapter.Proofs.Slots

/-!
# Running the code that loads a constant

`loadConstant` writes at most three instructions: an absent value goes through a local slot of its
own, any other value is one literal, and a nullable parameter wraps that literal. `LoadedBy` lists
the three forms, and by `writeConstant_cases` there is no other way to end but a refusal, before any
slot has been asked for. `steps_loadConstant` runs them: they leave the stack as it was with
`loadedValue v t` on top, and touch no local but the new one.

Shorter integers and truth values lie on the stack as 32-bit integers. The slot of the parameter
turns them back (`asSlot?_stacked`), except that the top type keeps what it is given. What arrives at
the parameter is `ValueType.arrived`; it is what the parameter should receive unless the parameter
is a nullable wrapper of the top type (`LoadedBy.arrived_eq_received`).
-/

namespace CallAdapter

open Machine Value

/-! ### Constants on the stack -/

/-- What the instruction for a constant pushes. -/
def Value.stacked : Value → Value
  | .bool b => .i32 (if b then 1 else 0)
  | .u8 n => .i32 n.toInt8.toInt32
  | .i16 n => .i32 n.toInt32
  | v => v

/-- What a constant is in a slot of a type after it was pushed. -/
def Value.slotted (v : Value) (t : ValueType) : Value := if t = .object then v.stacked else v

/-- What loading a constant for a parameter of a type leaves on the stack. -/
def loadedValue (v : Option Value) (t : ValueType) : Value :=
  match v.filter fun v => !v.isAbsent with
  | none => t.initial
  | some v =>
    match t.underlying? with
    | none => v.stacked
    | some u => .present (v.unwrap.slotted u)

def ValueType.arrived (t : ValueType) (v : Option Value) : Value :=
  match v.filter fun v => !v.isAbsent with
  | none => t.initial
  | some v =>
    match t.underlying? with
    | none => v.slotted t
    | some u => .present (v.unwrap.slotted u)

/-- What a parameter of a type receives for a constant: the initial value of the type if there is
none, and at a nullable type the wrapper around the value. -/
def ValueType.received (t : ValueType) (v : Option Value) : Value :=
  match v.filter fun v => !v.isAbsent with
  | none => t.initial
  | some v => if t.underlying?.isSome then .present v.unwrap else v

theorem filter_present {v : Value} (h : v.isAbsent = false) :
    (some v).filter (fun v => !v.isAbsent) = some v :=
  Option.filter_some_pos (by simp [h])

section Received

variable {t : ValueType} {w : Value}

theorem loadedValue_absent {v : Option Value} (h : v.filter (fun v => !v.isAbsent) = none) :
    loadedValue v t = t.initial := by
  rw [loadedValue, h]

theorem loadedValue_plain (hw : w.isAbsent = false) (ht : t.underlying? = none) :
    loadedValue (some w) t = w.stacked := by
  rw [loadedValue, filter_present hw]
  simp only [ht]

theorem loadedValue_wrapped (hw : w.isAbsent = false) (u : ValueType) :
    loadedValue (some w) (.nullable u) = .present (w.unwrap.slotted u) := by
  rw [loadedValue, filter_present hw]
  rfl

theorem arrived_absent {v : Option Value} (h : v.filter (fun v => !v.isAbsent) = none) :
    t.arrived v = t.initial := by
  rw [ValueType.arrived, h]

theorem arrived_plain (hw : w.isAbsent = false) (ht : t.underlying? = none) :
    t.arrived (some w) = w.slotted t := by
  rw [ValueType.arrived, filter_present hw]
  simp only [ht]

theorem arrived_wrapped (hw : w.isAbsent = false) (u : ValueType) :
    ValueType.arrived (.nullable u) (some w) = .present (w.unwrap.slotted u) := by
  rw [ValueType.arrived, filter_present hw]
  rfl

theorem received_absent {v : Option Value} (h : v.filter (fun v => !v.isAbsent) = none) :
    t.received v = t.initial := by
  rw [ValueType.received, h]

theorem received_plain (hw : w.isAbsent = false) (ht : t.underlying? = none) :
    t.received (some w) = w := by
  rw [ValueType.received, filter_present hw]
  simp [ht]

theorem received_wrapped (hw : w.isAbsent = false) (u : ValueType) :
    ValueType.received (.nullable u) (some w) = .present w.unwrap := by
  rw [ValueType.received, filter_present hw]
  rfl

end Received

theorem toUInt8_toInt32 (n : UInt8) : n.toInt8.toInt32.toUInt32.toUInt8 = n := by
  apply UInt8.toBitVec_inj.mp
  show BitVec.setWidth 8 (BitVec.signExtend 32 n.toBitVec) = n.toBitVec
  ext i hi
  have hlt : i < 32 := by omega
  simp [BitVec.getElem_signExtend, hi, hlt]

theorem bit_ne_zero (b : Bool) : ((if b then 1 else 0 : Int32) != 0) = b := by
  cases b <;> rfl

/-- The slot of a parameter turns a constant on the stack back into what it was. -/
theorem asSlot?_stacked {κ : Type} {v : Value} {t : ValueType} {i : Instruction κ}
    (hv : v.isInstance t = true) (hi : v.literal? = some i) :
    v.stacked.asSlot? t = some (v.slotted t) := by
  cases v <;> cases hi <;> cases t <;> cases hv <;>
    simp [stacked, slotted, asSlot?, fit?, isInstance, reshape?, toUInt8_toInt32, bit_ne_zero]

theorem isInstance_slotted {κ : Type} {v : Value} {t : ValueType} {i : Instruction κ}
    (hv : v.isInstance t = true) (hi : v.literal? = some i) :
    (v.slotted t).isInstance t = true := by
  cases v <;> cases hi <;> cases t <;> cases hv <;> rfl

/-- The initial value of a type may stand in its slots. -/
theorem fits_initial (t : ValueType) : t.initial.Fits t := by
  cases t with
  | str | object | reference => exact .inr ⟨by rw [ValueType.initial], rfl⟩
  | _ => exact .inl (by simp [ValueType.initial, isInstance])

/-! ### The three forms of loading code -/

/-- How a constant for a parameter of a type is loaded, when the slots `locals` have been asked for
before. -/
inductive LoadedBy (t : ValueType) (locals : Locals) :
    Option Value → List (Instruction Callee) × Locals → Prop
  /-- There is no value: a new slot is set to the initial value and loaded. -/
  | absent {v : Option Value} : v.filter (fun v => !v.isAbsent) = none → locals.size < 256 →
      LoadedBy t locals v
        ([.loadLocalAddress (UInt8.ofNat locals.size), ⟨.initobj, .type t⟩,
          .loadLocal (UInt8.ofNat locals.size)], ⟨locals.types ++ [t]⟩)
  /-- The value is a literal of the type. -/
  | plain {v : Value} {i : Instruction Callee} : v.isAbsent = false → t.underlying? = none →
      v.isInstance t = true → v.literal? = some i → LoadedBy t locals (some v) ([i], locals)
  /-- The value is a literal of the inner type and is wrapped. -/
  | wrapped {v : Value} {u : ValueType} {i : Instruction Callee} : v.isAbsent = false →
      t = .nullable u → v.unwrap.isInstance u = true → v.unwrap.literal? = some i →
      LoadedBy t locals (some v) ([i, ⟨.newobj, .method (.wrapper u)⟩], locals)

theorem loadLiteral_eq_ok {κ : Type} {v : Value} {t : ValueType} {i : Instruction κ}
    (h : loadLiteral v t = .ok i) : v.isInstance t = true ∧ v.literal? = some i := by
  unfold loadLiteral at h
  split at h
  · next hinst =>
    split at h
    · next j hj =>
      cases h
      exact ⟨hinst, hj⟩
    · cases h
  · cases h

theorem shortIndex_eq_ok {kind : IndexKind} {n : Nat} {index : UInt8}
    (h : shortIndex kind n = .ok index) : n < 256 ∧ index = UInt8.ofNat n := by
  unfold shortIndex at h
  split at h
  · next hlt =>
    cases h
    exact ⟨hlt, rfl⟩
  · cases h

/-! ### Writing it -/

namespace Loading

variable {α β : Type} {x : Loading α} {locals locals' : Locals}

theorem runOn_bind_ok {f : α → Loading β} {a : α} (h : x.runOn locals = (.ok a, locals')) :
    (x >>= f).runOn locals = (f a).runOn locals' := by
  have hrun : (ExceptT.run x).run locals = (.ok a, locals') := h
  show (ExceptT.run (x >>= f)).run locals = _
  rw [ExceptT.run_bind, StateT.run_bind, hrun]
  rfl

theorem runOn_bind_error {f : α → Loading β} {e : BuildError}
    (h : x.runOn locals = (.error e, locals')) : (x >>= f).runOn locals = (.error e, locals') := by
  have hrun : (ExceptT.run x).run locals = (.error e, locals') := h
  show (ExceptT.run (x >>= f)).run locals = _
  rw [ExceptT.run_bind, StateT.run_bind, hrun]
  rfl

theorem runOn_ofExcept_map (y : Except BuildError α) (f : α → β) :
    (ofExcept y >>= fun a => pure (f a)).runOn locals = (y.map f, locals) := by
  cases y with
  | error e => exact runOn_bind_error rfl
  | ok a => exact runOn_bind_ok rfl

/-- A slot that is refused is not asked for. -/
theorem runOn_slot_error {e : BuildError} (t : ValueType)
    (h : shortIndex .localSlot locals.size = .error e) :
    (slot t).runOn locals = (.error e, locals) := by
  have hadd : locals.add t = .error e := by
    rw [Locals.add, h]
    rfl
  refine (runOn_bind_ok rfl).trans ?_
  rw [hadd]
  rfl

theorem runOn_slot_ok {index : UInt8} (t : ValueType)
    (h : shortIndex .localSlot locals.size = .ok index) :
    (slot t).runOn locals = (.ok index, ⟨locals.types ++ [t]⟩) := by
  have hadd : locals.add t = .ok (index, ⟨locals.types ++ [t]⟩) := by
    rw [Locals.add, h]
    rfl
  refine (runOn_bind_ok rfl).trans ?_
  rw [hadd]
  rfl

end Loading

section Writing

variable {v : Option Value} {w : Value} {t : ValueType} {locals : Locals}

theorem runOn_loadInitial_error {e : BuildError} (t : ValueType)
    (h : shortIndex .localSlot locals.size = .error e) :
    (loadInitial t : Loading (List (Instruction Callee))).runOn locals = (.error e, locals) :=
  Loading.runOn_bind_error (Loading.runOn_slot_error t h)

/-- Once there is a slot, nothing else is refused. -/
theorem runOn_loadInitial_ok {index : UInt8} (t : ValueType)
    (h : shortIndex .localSlot locals.size = .ok index) :
    (loadInitial t : Loading (List (Instruction Callee))).runOn locals =
      (.ok [.loadLocalAddress index, ⟨.initobj, .type t⟩, .loadLocal index],
        ⟨locals.types ++ [t]⟩) :=
  Loading.runOn_bind_ok (Loading.runOn_slot_ok t h)

theorem runOn_writeConstant_unsupported (h : t.isSimple = false) :
    (writeConstant v t).runOn locals = (.error (.unsupportedType t), locals) := by
  rw [writeConstant, if_neg (by simp [h])]
  rfl

theorem writeConstant_absent (h : t.isSimple = true)
    (hv : v.filter (fun v => !v.isAbsent) = none) : writeConstant v t = loadInitial t := by
  rw [writeConstant, if_pos h, hv]

theorem runOn_writeConstant_plain (h : t.isSimple = true) (hw : w.isAbsent = false)
    (ht : t.underlying? = none) : (writeConstant (some w) t).runOn locals =
      ((loadLiteral w t).map fun i => [i], locals) := by
  rw [writeConstant, if_pos h, filter_present hw]
  simp only [ht]
  exact Loading.runOn_ofExcept_map _ _

theorem runOn_writeConstant_wrapped (hw : w.isAbsent = false) (u : ValueType) :
    (writeConstant (some w) (.nullable u)).runOn locals =
      ((loadLiteral w.unwrap u).map fun i => [i, ⟨.newobj, .method (.wrapper u)⟩], locals) := by
  have hsimple : (ValueType.nullable u).isSimple = true := rfl
  rw [writeConstant, if_pos hsimple, filter_present hw]
  exact Loading.runOn_ofExcept_map _ _

/-- Code is written in one of the three forms, or it is refused and no slot has been asked for. -/
theorem writeConstant_cases (v : Option Value) (t : ValueType) (locals : Locals) :
    (∃ e, (writeConstant v t).runOn locals = (.error e, locals)) ∨
      ∃ code locals', (writeConstant v t).runOn locals = (.ok code, locals') ∧
        t.isSimple = true ∧ LoadedBy t locals v (code, locals') := by
  cases hsimple : t.isSimple with
  | false => exact .inl ⟨_, runOn_writeConstant_unsupported hsimple⟩
  | true =>
    cases hv : v.filter fun v => !v.isAbsent with
    | none =>
      -- An absent value takes a local slot, if its index is a byte.
      rw [writeConstant_absent hsimple hv]
      cases hindex : shortIndex .localSlot locals.size with
      | error e => exact .inl ⟨e, runOn_loadInitial_error t hindex⟩
      | ok index =>
        obtain ⟨hsize, rfl⟩ := shortIndex_eq_ok hindex
        exact .inr ⟨_, _, runOn_loadInitial_ok t hindex, rfl, .absent hv hsize⟩
    | some w =>
      obtain ⟨rfl, hpresent⟩ := Option.filter_eq_some_iff.mp hv
      have hw : w.isAbsent = false := by simpa using hpresent
      cases hunderlying : t.underlying? with
      | none =>
        rw [runOn_writeConstant_plain hsimple hw hunderlying]
        cases hload : (loadLiteral w t : Except BuildError (Instruction Callee)) with
        | error e => exact .inl ⟨e, rfl⟩
        | ok i =>
          obtain ⟨hinst, hi⟩ := loadLiteral_eq_ok hload
          exact .inr ⟨_, _, rfl, rfl, .plain hw hunderlying hinst hi⟩
      | some u =>
        obtain rfl : t = .nullable u := by
          cases t <;> cases hunderlying
          rfl
        rw [runOn_writeConstant_wrapped hw]
        cases hload : (loadLiteral w.unwrap u : Except BuildError (Instruction Callee)) with
        | error e => exact .inl ⟨e, rfl⟩
        | ok i =>
          obtain ⟨hinst, hi⟩ := loadLiteral_eq_ok hload
          exact .inr ⟨_, _, rfl, rfl, .wrapped hw rfl hinst hi⟩

theorem loadConstant_eq (v : Option Value) (t : ValueType) (locals : Locals) :
    loadConstant v t locals = ((writeConstant v t).runOn locals).1.map fun code =>
      (code, ((writeConstant v t).runOn locals).2) := by
  unfold loadConstant
  rcases (writeConstant v t).runOn locals with ⟨e | code, locals'⟩ <;> rfl

theorem loadedBy_of_loadConstant {out : List (Instruction Callee) × Locals}
    (h : loadConstant v t locals = .ok out) : t.isSimple = true ∧ LoadedBy t locals v out := by
  rw [loadConstant_eq] at h
  rcases writeConstant_cases v t locals with ⟨e, herror⟩ | ⟨code, locals', hok, hloaded⟩
  · rw [herror] at h
    cases h
  · rw [hok] at h
    cases h
    exact hloaded

end Writing

/-! ### Running it -/

/-- Instructions with the calls to their callees. -/
def linkCode (code : List (Instruction Callee)) : List (Instruction Link) :=
  code.map (Instruction.map Callee.link)

theorem map_loadArgument {κ μ : Type} (f : κ → μ) (index : UInt8) :
    (Instruction.loadArgument index).map f = Instruction.loadArgument index := by
  unfold Instruction.loadArgument
  split <;> rfl

theorem map_loadLocal {κ μ : Type} (f : κ → μ) (index : UInt8) :
    (Instruction.loadLocal index).map f = Instruction.loadLocal index := by
  unfold Instruction.loadLocal
  split <;> rfl

theorem gives_literal (c : Context) (f : Frame) (offset : Nat) {v : Value}
    {i : Instruction Callee} (h : v.literal? = some i) :
    (f.step c offset (i.map Callee.link)).Gives (.ok (.next (f.pushValue v.stacked))) := by
  cases v with
  | bool b =>
    cases h
    cases b <;> exact Task.gives_pure _
  | u8 | i16 | i32 | i64 | f32 | f64 | str =>
    cases h
    exact Task.gives_pure _
  | _ => cases h

/-- The constructor of a wrapper takes the constant from the stack and pushes it in a wrapper. -/
theorem gives_wrapper (c : Context) {f : Frame} (offset : Nat) {v : Value} {u : ValueType}
    {i : Instruction Callee} (hv : v.isInstance u = true) (hi : v.literal? = some i) :
    ((f.pushValue v.stacked).step c offset
      (Instruction.map Callee.link ⟨.newobj, .method (.wrapper u)⟩)).Gives
      (.ok (.next (f.pushValue (.present (v.slotted u))))) := by
  have hcall := gives_call (f := f.pushValue v.stacked) offset (Callee.wrapper u).link [v.stacked]
    f.stack (wrapOne u) rfl rfl fun args => Task.gives_ofExcept _
  simp only [Callee.link, fitAll, asSlot?_stacked hv hi] at hcall
  exact hcall.map _

/-- The code that loads a constant pushes it. It leaves all else as it was, save for the new local
slot if it has asked for one. -/
theorem steps_loadConstant (c : Context) {v : Option Value} {t : ValueType} {locals : Locals}
    {code : List (Instruction Callee)} {locals' : Locals}
    (h : LoadedBy t locals v (code, locals')) {ps : List (Placed Link)}
    (hps : ps.map Placed.instruction = linkCode code) (f : Frame)
    (hroom : locals'.size ≤ f.locals.length) :
    ∃ slots : List Value, slots.length = f.locals.length ∧
      (∀ k, k < locals.size ∨ locals'.size ≤ k → slots[k]? = f.locals[k]?) ∧
      (steps c ps f).Gives
        (.ok (.next (Frame.pushValue { f with locals := slots } (loadedValue v t)))) := by
  cases h with
  | absent hnone hsize =>
    have hindex : (UInt8.ofNat locals.size).toNat = locals.size :=
      UInt8.toNat_ofNat_of_lt' hsize
    have hlt : locals.size < f.locals.length := by
      simpa [Locals.size] using hroom
    refine ⟨f.locals.set locals.size t.initial, by simp, ?_, ?_⟩
    · intro k hk
      have hne : locals.size ≠ k := by
        simp [Locals.size] at hk ⊢
        omega
      exact List.getElem?_set_ne hne
    · -- Three instructions: the address of the new slot, its initialisation, and the load.
      obtain ⟨p₁, _, rfl, h₁, hps⟩ := List.map_eq_cons_iff.mp hps
      obtain ⟨p₂, _, rfl, h₂, hps⟩ := List.map_eq_cons_iff.mp hps
      obtain ⟨p₃, _, rfl, h₃, hps⟩ := List.map_eq_cons_iff.mp hps
      obtain rfl := List.map_eq_nil_iff.mp hps
      have haddress : (f.step c p₁.offset p₁.instruction).Gives
          (.ok (.next (f.push (.localSlot locals.size)))) := by
        rw [h₁]
        nth_rewrite 2 [← hindex]
        exact Task.gives_pure _
      have hinit := gives_initobj c p₂.offset (t := t) (f := f.push (.localSlot locals.size))
        rfl hlt
      have hload := gives_loadLocal c p₃.offset (UInt8.ofNat locals.size)
        (f := ⟨f.args, f.locals.set locals.size t.initial, f.stack⟩) (v := t.initial)
        (by rw [hindex]; exact List.getElem?_set_self hlt)
      rw [← map_loadLocal Callee.link, ← h₃] at hload
      rw [loadedValue_absent hnone]
      refine gives_steps_cons haddress (gives_steps_cons ?_ (gives_steps_cons hload
        (gives_steps_nil c _)))
      rw [h₂]
      exact hinit
  | @plain w i habsent hplain hinst hi =>
    refine ⟨f.locals, rfl, fun _ _ => rfl, ?_⟩
    obtain ⟨p, _, rfl, hp, hps⟩ := List.map_eq_cons_iff.mp hps
    obtain rfl := List.map_eq_nil_iff.mp hps
    rw [loadedValue_plain habsent hplain]
    refine gives_steps_cons ?_ (gives_steps_nil c _)
    rw [hp]
    exact gives_literal c f p.offset hi
  | @wrapped w u i habsent ht hinst hi =>
    subst ht
    refine ⟨f.locals, rfl, fun _ _ => rfl, ?_⟩
    obtain ⟨p, _, rfl, hp, hps⟩ := List.map_eq_cons_iff.mp hps
    obtain ⟨q, _, rfl, hq, hps⟩ := List.map_eq_cons_iff.mp hps
    obtain rfl := List.map_eq_nil_iff.mp hps
    rw [loadedValue_wrapped habsent]
    have hliteral := gives_literal c f p.offset hi
    have hwrapper := gives_wrapper c (f := f) q.offset hinst hi
    rw [← hp] at hliteral
    rw [← hq] at hwrapper
    exact gives_steps_cons hliteral (gives_steps_cons hwrapper (gives_steps_nil c _))

/-! ### What arrives at the parameter -/

section Arrival

variable {v : Option Value} {t : ValueType} {locals : Locals}
  {out : List (Instruction Callee) × Locals}

/-- The slot of the parameter takes what was loaded. -/
theorem LoadedBy.asSlot?_loadedValue (h : LoadedBy t locals v out) :
    (loadedValue v t).asSlot? t = some (t.arrived v) := by
  cases h with
  | absent hnone hsize =>
    rw [loadedValue_absent hnone, arrived_absent hnone]
    exact (fits_initial t).asSlot?_eq
  | @plain w i habsent hplain hinst hi =>
    rw [loadedValue_plain habsent hplain, arrived_plain habsent hplain]
    exact asSlot?_stacked hinst hi
  | @wrapped w u i habsent ht hinst hi =>
    subst ht
    rw [loadedValue_wrapped habsent, arrived_wrapped habsent]
    -- The constructor has put the constant into a slot of the inner type already.
    have hfits : (Value.present (w.unwrap.slotted u)).Fits (.nullable u) :=
      .inl (isInstance_slotted hinst hi)
    exact hfits.asSlot?_eq

/-- A constant arrives as the parameter should receive it. Wrappers of the top type are left out:
they keep what lies on the stack. -/
theorem LoadedBy.arrived_eq_received (h : LoadedBy t locals v out) (hsimple : t.isSimple = true)
    (hobject : t ≠ .nullable .object) : t.arrived v = t.received v := by
  cases h with
  | absent hnone hsize => rw [arrived_absent hnone, received_absent hnone]
  | @plain w i habsent hplain hinst hi =>
    have ht : t ≠ .object := by
      rintro rfl
      cases hsimple
    rw [arrived_plain habsent hplain, received_plain habsent hplain, slotted, if_neg ht]
  | @wrapped w u i habsent ht hinst hi =>
    subst ht
    have hu : u ≠ .object := by
      rintro rfl
      exact hobject rfl
    rw [arrived_wrapped habsent, received_wrapped habsent, slotted, if_neg hu]

/-- A constant is accepted for a parameter of the type. -/
def Loads (v : Option Value) (t : ValueType) : Prop :=
  ∃ locals out, loadConstant v t locals = .ok out

theorem Loads.asSlot?_loadedValue (h : Loads v t) :
    (loadedValue v t).asSlot? t = some (t.arrived v) := by
  obtain ⟨locals, out, h⟩ := h
  exact (loadedBy_of_loadConstant h).2.asSlot?_loadedValue

theorem Loads.arrived_eq_received (h : Loads v t) (hobject : t ≠ .nullable .object) :
    t.arrived v = t.received v := by
  obtain ⟨locals, out, h⟩ := h
  obtain ⟨hsimple, hloaded⟩ := loadedBy_of_loadConstant h
  exact hloaded.arrived_eq_received hsimple hobject

/-- What was loaded for a parameter of the type arrives there as the parameter receives it. -/
def Arrives (v : Option Value) (t : ValueType) : Prop :=
  (loadedValue v t).asSlot? t = some (t.received v)

theorem LoadedBy.arrives (h : LoadedBy t locals v out) (hsimple : t.isSimple = true)
    (hobject : t ≠ .nullable .object) : Arrives v t := by
  rw [Arrives, h.asSlot?_loadedValue, h.arrived_eq_received hsimple hobject]

end Arrival

end CallAdapter
