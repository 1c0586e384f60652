import CallAdapter.Proofs.Outcome
import CallAdapter.Proofs.Reencoding

/-!
# The two passes of the encoder

`Draft.finish` goes through the instructions twice. The first pass measures them and looks at opcodes
only: an opcode can be measured if its kind of operand has a length. The second pass writes them and
looks at the operands too: an operand fits if it is of the opcode's kind.

Each pass stops at the first instruction that it cannot handle (`measure_error`, `encodeAll_error`), and
the first pass is over before the second begins. An operand that fits has as many bytes as its opcode
was measured with, so that both passes come to the same number of bytes (`Tables.encodeAll_measure`).
-/

namespace CallAdapter

variable {κ : Type}

/-- Whether the kind of operand that follows the opcode has a length. -/
def OpCode.isMeasurable (op : OpCode) : Bool := op.operandKind.length?.isSome

/-- Whether the operand is of the kind that the opcode asks for. -/
def Instruction.isFitting (i : Instruction κ) : Bool := i.operand.kind == i.op.operandKind

/-! ### One instruction -/

section Instructions

variable {i : Instruction κ}

theorem length_of_isMeasurable (h : i.op.isMeasurable = true) : ∃ n, i.length = .ok n := by
  obtain ⟨n, hn⟩ := Option.isSome_iff_exists.mp h
  exact ⟨i.op.size + n, by rw [Instruction.length, OpCode.length?, hn, Option.map_some]⟩

theorem length_of_not_isMeasurable (h : i.op.isMeasurable = false) :
    i.length = .error (.unmeasurableOperand i.op) := by
  have hnone : i.op.operandKind.length? = none := by simpa [OpCode.isMeasurable] using h
  rw [Instruction.length, OpCode.length?, hnone, Option.map_none]

theorem kind_of_isFitting (h : i.isFitting = true) : i.operand.kind = i.op.operandKind := by
  simpa [Instruction.isFitting] using h

/-- Every operand has a length, so an opcode with an operand that fits can be measured. -/
theorem isMeasurable_of_isFitting (h : i.isFitting = true) : i.op.isMeasurable = true := by
  rw [OpCode.isMeasurable, ← kind_of_isFitting h]
  cases i.operand <;> rfl

end Instructions

/-! ### The passes -/

section Passes

variable {is : List (Instruction κ)} {i : Instruction κ}

/-- The first pass stops at the first opcode that cannot be measured. -/
theorem measure_error (h : is.find? (fun i => !i.op.isMeasurable) = some i) :
    measure is = .error (.unmeasurableOperand i.op) := by
  induction is with
  | nil => cases h
  | cons j is ih =>
    rw [measure]
    cases hj : j.op.isMeasurable with
    | false =>
      rw [List.find?_cons_of_pos (by simp [hj])] at h
      cases h
      rw [length_of_not_isMeasurable hj]
      rfl
    | true =>
      rw [List.find?_cons_of_neg (by simp [hj])] at h
      obtain ⟨n, hn⟩ := length_of_isMeasurable hj
      rw [hn, ih h]
      rfl

theorem exists_measure (h : is.find? (fun i => !i.op.isMeasurable) = none) :
    ∃ n, measure is = .ok n := by
  induction is with
  | nil => exact ⟨0, rfl⟩
  | cons j is ih =>
    simp only [List.find?_eq_none, List.mem_cons, forall_eq_or_imp, Bool.not_eq_true',
      Bool.not_eq_false] at h
    obtain ⟨n, hn⟩ := length_of_isMeasurable h.1
    obtain ⟨rest, hrest⟩ := ih (by simpa using h.2)
    exact ⟨n + rest, by rw [measure, hn, hrest]; rfl⟩

variable [BEq κ]

theorem encode_of_isFitting (t : Tables κ) (h : i.isFitting = true) :
    t.encode i = .ok (i.op.encoding ++ (t.write i.operand).1, (t.write i.operand).2) := by
  rw [Tables.encode, Instruction.check, if_pos (kind_of_isFitting h)]
  rfl

/-- The second pass stops at the first operand that does not fit. -/
theorem encodeAll_error (t : Tables κ) (h : is.find? (fun i => !i.isFitting) = some i) :
    t.encodeAll is = .error (.invalidOperand i.op) := by
  induction is generalizing t with
  | nil => cases h
  | cons j is ih =>
    rw [Tables.encodeAll]
    cases hj : j.isFitting with
    | false =>
      rw [List.find?_cons_of_pos (by simp [hj])] at h
      cases h
      have hkind : i.operand.kind ≠ i.op.operandKind := by simpa [Instruction.isFitting] using hj
      rw [Tables.encode, Instruction.check, if_neg hkind]
      rfl
    | true =>
      -- What has been written before only changes the tables, not whether the rest fits.
      rw [List.find?_cons_of_neg (by simp [hj])] at h
      rw [encode_of_isFitting t hj]
      show ((t.write j.operand).2.encodeAll is >>= _) = _
      rw [ih _ h]
      rfl

/-! ### Both passes -/

variable {d : Draft κ} {b : Body κ}

theorem finish_of_unmeasurable (h : d.code.find? (fun i => !i.op.isMeasurable) = some i) :
    d.finish = .error (.unmeasurableOperand i.op) := by
  rw [Draft.finish_eq, measure_error h]
  rfl

theorem finish_of_unfitting (hmeasurable : d.code.find? (fun i => !i.op.isMeasurable) = none)
    (h : d.code.find? (fun i => !i.isFitting) = some i) :
    d.finish = .error (.invalidOperand i.op) := by
  obtain ⟨n, hn⟩ := exists_measure hmeasurable
  rw [Draft.finish_eq, hn]
  show (Tables.empty.encodeAll d.code >>= _) = _
  rw [encodeAll_error _ h]
  rfl

/-- What is reported: the first opcode that cannot be measured, or if there is none, the first operand
that does not fit. -/
theorem finish_error_iff {e : BuildError} : d.finish = .error e ↔
    (∃ i, d.code.find? (fun i => !i.op.isMeasurable) = some i ∧ e = .unmeasurableOperand i.op) ∨
    d.code.find? (fun i => !i.op.isMeasurable) = none ∧
      ∃ i, d.code.find? (fun i => !i.isFitting) = some i ∧ e = .invalidOperand i.op := by
  cases hmeasure : d.code.find? (fun i => !i.op.isMeasurable) with
  | some i => simp [finish_of_unmeasurable hmeasure, eq_comm]
  | none =>
    cases hfit : d.code.find? (fun i => !i.isFitting) with
    | some i => simp [finish_of_unfitting hmeasure hfit, eq_comm]
    | none =>
      obtain ⟨b, hb⟩ := d.exists_finish fun i hi =>
        kind_of_isFitting (by simpa using List.find?_eq_none.mp hfit i hi)
      simp [hb]

/-- A draft is finished exactly if all operands fit. -/
theorem exists_finish_iff : (∃ b, d.finish = .ok b) ↔ ∀ i ∈ d.code, i.isFitting = true := by
  constructor
  · rintro ⟨b, hb⟩
    by_contra hsome
    obtain ⟨hcode, -⟩ := Draft.finish_eq_ok hb
    cases hfind : d.code.find? (fun i => !i.isFitting) with
    | none => exact hsome fun i hi => by simpa using List.find?_eq_none.mp hfind i hi
    | some i => cases hcode.symm.trans (encodeAll_error _ hfind)
  · intro hall
    exact d.exists_finish fun i hi => kind_of_isFitting (hall i hi)

end Passes

/-! ### Locals -/

/-- Asking for slots appends their types. -/
theorem Locals.types_of_addAll {l l' : Locals} {ts : List ValueType} (h : l.addAll ts = .ok l') :
    l'.types = l.types ++ ts := by
  induction ts generalizing l with
  | nil =>
    cases h
    rw [List.append_nil]
  | cons t ts ih =>
    rw [Locals.addAll, Locals.add] at h
    obtain ⟨⟨index, l₁⟩, hadd, hrest⟩ := exists_of_bind_eq_ok h
    obtain ⟨_, -, hl₁⟩ := exists_of_map_eq_ok hadd
    cases hl₁
    rw [ih hrest, List.append_assoc]
    rfl

/-- **The two passes of the encoder agree.** A draft is finished exactly if every opcode can be
measured and every operand fits. If some opcode cannot be measured, the first such opcode is reported,
also behind an operand that does not fit; otherwise the first operand that does not fit. A finished body
has as many bytes as were measured, and it declares the locals in the order in which they were asked
for. -/
theorem finish_two_passes [BEq κ] (d : Draft κ) :
    ((∃ b, d.finish = .ok b) ↔ ∀ i ∈ d.code, i.op.isMeasurable = true ∧ i.isFitting = true) ∧
    (∀ i, d.code.find? (fun i => !i.op.isMeasurable) = some i →
      d.finish = .error (.unmeasurableOperand i.op)) ∧
    (∀ i, d.code.find? (fun i => !i.op.isMeasurable) = none →
      d.code.find? (fun i => !i.isFitting) = some i → d.finish = .error (.invalidOperand i.op)) ∧
    ∀ b, d.finish = .ok b → measure d.code = .ok b.code.length ∧ b.locals = d.locals.types ∧
      ∀ ts, Locals.empty.addAll ts = .ok d.locals → b.locals = ts := by
  refine ⟨?_, fun i => finish_of_unmeasurable, fun i => finish_of_unfitting, ?_⟩
  · rw [exists_finish_iff]
    exact forall₂_congr fun i _ =>
      ⟨fun h => ⟨isMeasurable_of_isFitting h, h⟩, fun h => h.2⟩
  · intro b hb
    obtain ⟨hcode, hlocals⟩ := Draft.finish_eq_ok hb
    refine ⟨Tables.encodeAll_measure hcode, hlocals, fun ts hts => ?_⟩
    rw [hlocals, Locals.types_of_addAll hts]
    rfl

/-- The branch is reported although the operand in front of it does not fit; without the branch that
operand is. The third draft comes to twelve bytes. -/
theorem finish_two_passes_order :
    ∃ (first second third : Draft Callee) (b : Body Callee),
      first = ⟨[⟨.ldcI4, .none⟩, .bare .br, .bare .ldfld], .empty⟩ ∧
      first.finish = .error (.unmeasurableOperand .br) ∧
      second = ⟨[.bare .nop, ⟨.ldcI4, .none⟩, ⟨.pop, .byte 1⟩], .empty⟩ ∧
      second.finish = .error (.invalidOperand .ldcI4) ∧
      third = ⟨[⟨.ldstr, .string "a"⟩, ⟨.initobj, .type .i16⟩, .bare .ret], ⟨[.str, .i16]⟩⟩ ∧
      third.finish = .ok b ∧ measure third.code = .ok 12 ∧ b.code.length = 12 ∧
      Locals.empty.addAll [.str, .i16] = .ok third.locals ∧ b.locals = [.str, .i16] := by
  obtain ⟨third, hthird⟩ : ∃ d : Draft Callee, d = ⟨[⟨.ldstr, .string "a"⟩, ⟨.initobj, .type .i16⟩,
    .bare .ret], ⟨[.str, .i16]⟩⟩ := ⟨_, rfl⟩
  have hmeasure : measure third.code = .ok 12 := by
    rw [hthird]
    rfl
  have hadd : Locals.empty.addAll [.str, .i16] = .ok third.locals := by
    rw [hthird]
    rfl
  obtain ⟨hok, -, -, hagree⟩ := finish_two_passes third
  obtain ⟨b, hb⟩ : ∃ b, third.finish = .ok b := hok.mpr (by simp [hthird]; decide)
  obtain ⟨hlength, -, hlocals⟩ := hagree b hb
  refine ⟨_, _, third, b, rfl, (finish_two_passes _).2.1 (.bare .br) rfl, rfl,
    (finish_two_passes _).2.2.1 ⟨.ldcI4, .none⟩ rfl rfl, hthird, hb, hmeasure, ?_, hadd,
    hlocals _ hadd⟩
  exact (Except.ok.inj (hmeasure.symm.trans hlength)).symm

end CallAdapter
