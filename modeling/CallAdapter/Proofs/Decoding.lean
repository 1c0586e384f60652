import CallAdapter.Code.Outline
import CallAdapter.Proofs.Grammar

/-!
# The decoder reads exactly the grammar

`Tables.decode` against `Laid` and `Tables.Blames`. One step of the decoder has three outcomes, and
each has its lemma: `decode_operand`, `decode_truncated` and `decode_unsupported`. What it makes of
the bytes of an operand is `read_spelled` and `read_unresolved`.

The main result is `decode_grammar`.
-/

namespace CallAdapter

variable {κ μ : Type}

/-! ### Operands -/

theorem Operand.Spelled.length {t : Tables κ} {o : Operand κ} {operand : List UInt8}
    (h : o.Spelled t operand) : o.kind.length? = some operand.length := by
  cases h <;> simp [Operand.kind, OperandKind.length?, LittleEndian.length_write]

theorem resolve_write {α : Type} (offset : Nat) {find? : UInt32 → Option α} {token : UInt32}
    {a : α} (h : find? token = some a) :
    resolve offset find? (LittleEndian.write 4 token.toNat) = .ok a := by
  have htoken := Token.ofBytes_write token
  rw [Token.ofBytes] at htoken
  rw [resolve, htoken, h]

theorem resolve_none {α : Type} (offset : Nat) {find? : UInt32 → Option α} {bytes : List UInt8}
    (h : find? (Token.ofBytes bytes) = none) :
    resolve offset find? bytes = .error (.badToken offset (Token.ofBytes bytes)) := by
  rw [Token.ofBytes] at *
  rw [resolve, h]

namespace Tables

/-- The bytes of an operand are read as that operand. -/
theorem read_spelled {t : Tables κ} (offset : Nat) {o : Operand κ} {operand : List UInt8}
    (h : o.Spelled t operand) : t.read offset operand o.kind = .ok o := by
  cases h with
  | none => rfl
  | byte b => rfl
  | int32 n =>
    have hn : n.toUInt32.toNat < 256 ^ 4 := n.toUInt32.toNat_lt
    simp [Operand.kind, read, LittleEndian.read_write_of_lt hn]
  | int64 n =>
    have hn : n.toUInt64.toNat < 256 ^ 8 := n.toUInt64.toNat_lt
    simp [Operand.kind, read, LittleEndian.read_write_of_lt hn]
  | float32 x =>
    have hx : x.word < 256 ^ 4 := x.bits.toNat_lt
    simp [Operand.kind, read, LittleEndian.read_write_of_lt hx]
  | float64 x =>
    have hx : x.word < 256 ^ 8 := x.bits.toNat_lt
    simp [Operand.kind, read, LittleEndian.read_write_of_lt hx]
  | string hs =>
    rw [Operand.kind, read, resolve_write offset hs]
    rfl
  | method hs =>
    rw [Operand.kind, read, resolve_write offset hs]
    rfl
  | type hs =>
    rw [Operand.kind, read, resolve_write offset hs]
    rfl

/-- Bytes of the right length that refer to something spell an operand. -/
theorem exists_spelled {t : Tables κ} {kind : OperandKind} {operand : List UInt8}
    (hlen : kind.length? = some operand.length) (h : t.Resolves kind operand) :
    ∃ o : Operand κ, o.kind = kind ∧ o.Spelled t operand := by
  cases kind with
  | none =>
    obtain rfl : operand = [] := by simpa [OperandKind.length?] using hlen.symm
    exact ⟨.none, rfl, .none⟩
  | byte =>
    obtain ⟨b, rfl⟩ : ∃ b, operand = [b] := by
      rw [← List.length_eq_one_iff]
      simpa [OperandKind.length?] using hlen.symm
    exact ⟨.byte b, rfl, .byte b⟩
  | int32 =>
    -- The number that the bytes stand for is written with these bytes, as there are four of them.
    have hfour : operand.length = 4 := by simpa [OperandKind.length?] using hlen.symm
    refine ⟨.int32 (UInt32.ofNat (LittleEndian.read operand)).toInt32, rfl, ?_⟩
    have hspelled := Operand.Spelled.int32 (t := t)
      (UInt32.ofNat (LittleEndian.read operand)).toInt32
    rw [UInt32.toUInt32_toInt32, LittleEndian.toNat_ofNat_read_four hfour, ← hfour,
      LittleEndian.write_read] at hspelled
    exact hspelled
  | int64 =>
    have height : operand.length = 8 := by simpa [OperandKind.length?] using hlen.symm
    refine ⟨.int64 (UInt64.ofNat (LittleEndian.read operand)).toInt64, rfl, ?_⟩
    have hspelled := Operand.Spelled.int64 (t := t)
      (UInt64.ofNat (LittleEndian.read operand)).toInt64
    rw [UInt64.toUInt64_toInt64, LittleEndian.toNat_ofNat_read_eight height, ← height,
      LittleEndian.write_read] at hspelled
    exact hspelled
  | float32 =>
    have hfour : operand.length = 4 := by simpa [OperandKind.length?] using hlen.symm
    refine ⟨.float32 ⟨UInt32.ofNat (LittleEndian.read operand)⟩, rfl, ?_⟩
    have hspelled := Operand.Spelled.float32 (t := t)
      ⟨UInt32.ofNat (LittleEndian.read operand)⟩
    rw [Binary.Single.word, LittleEndian.toNat_ofNat_read_four hfour, ← hfour,
      LittleEndian.write_read] at hspelled
    exact hspelled
  | float64 =>
    have height : operand.length = 8 := by simpa [OperandKind.length?] using hlen.symm
    refine ⟨.float64 ⟨UInt64.ofNat (LittleEndian.read operand)⟩, rfl, ?_⟩
    have hspelled := Operand.Spelled.float64 (t := t)
      ⟨UInt64.ofNat (LittleEndian.read operand)⟩
    rw [Binary.Double.word, LittleEndian.toNat_ofNat_read_eight height, ← height,
      LittleEndian.write_read] at hspelled
    exact hspelled
  | string =>
    -- A token stays as it is: the operand is what stands in the row that it names.
    have hfour : operand.length = 4 := by simpa [OperandKind.length?] using hlen.symm
    have hrow := h _ _ rfl
    obtain ⟨s, hs⟩ := Option.isSome_iff_exists.mp ((Token.find?_isSome_iff _ _ _).mpr hrow)
    exact ⟨.string s, rfl, Token.write_ofBytes hfour ▸ .string hs⟩
  | method =>
    have hfour : operand.length = 4 := by simpa [OperandKind.length?] using hlen.symm
    have hrow := h _ _ rfl
    obtain ⟨s, hs⟩ := Option.isSome_iff_exists.mp ((Token.find?_isSome_iff _ _ _).mpr hrow)
    exact ⟨.method s, rfl, Token.write_ofBytes hfour ▸ .method hs⟩
  | type =>
    have hfour : operand.length = 4 := by simpa [OperandKind.length?] using hlen.symm
    have hrow := h _ _ rfl
    obtain ⟨s, hs⟩ := Option.isSome_iff_exists.mp ((Token.find?_isSome_iff _ _ _).mpr hrow)
    exact ⟨.type s, rfl, Token.write_ofBytes hfour ▸ .type hs⟩
  | branchTarget => cases hlen
  | field => cases hlen
  | token => cases hlen

/-- A token that refers to nothing is reported with the offset of its instruction. -/
theorem read_unresolved {t : Tables κ} (offset : Nat) {kind : OperandKind}
    {operand : List UInt8} (h : ¬ t.Resolves kind operand) :
    t.read offset operand kind = .error (.badToken offset (Token.ofBytes operand)) := by
  simp only [Resolves, Classical.not_forall] at h
  obtain ⟨tableByte, rows, htable, hrow⟩ := h
  cases kind <;> simp only [tokenTable, Option.some.injEq, Prod.mk.injEq, reduceCtorEq] at htable
  all_goals
    obtain ⟨rfl, rfl⟩ := htable
    rw [← Token.find?_isSome_iff, Option.not_isSome_iff_eq_none] at hrow
    simp only [read, string?, method?, type?]
    rw [resolve_none offset hrow]
    rfl

/-! ### One step of the decoder -/

/-- An instruction whose operand is complete is read, and the decoder goes on behind it. -/
theorem decode_operand (t : Tables κ) (offset : Nat) {op : OpCode} {operand : List UInt8}
    (rest : List UInt8) (hlen : op.operandKind.length? = some operand.length) :
    t.decode offset (op.encoding ++ (operand ++ rest)) = (do
      let o ← t.read offset operand op.operandKind
      let ps ← t.decode (offset + (op.size + operand.length)) rest
      return ⟨offset, ⟨op, o⟩⟩ :: ps) := by
  have hread := OpCode.read?_encoding_append op (operand ++ rest)
  have hoperand : ((op.encoding ++ (operand ++ rest)).drop op.size).take operand.length
      = operand := by
    simp [OpCode.size]
  have hrest : (op.encoding ++ (operand ++ rest)).drop (op.size + operand.length) = rest := by
    simp [OpCode.size, List.drop_append]
  cases hcode : op.encoding ++ (operand ++ rest) with
  | nil => simp [op.encoding_ne_nil] at hcode
  | cons b bs =>
    rw [hcode] at hread hoperand hrest
    rw [decode]
    simp [hread, hlen, hoperand, hrest]

theorem decode_of_read {t : Tables κ} {offset : Nat} {op : OpCode} {operand : List UInt8}
    {o : Operand κ} (hlen : op.operandKind.length? = some operand.length)
    (hread : t.read offset operand op.operandKind = .ok o) (rest : List UInt8) :
    t.decode offset (op.encoding ++ operand ++ rest)
      = (t.decode (offset + (op.encoding ++ operand).length) rest).map (⟨offset, ⟨op, o⟩⟩ :: ·) := by
  rw [List.append_assoc, t.decode_operand offset rest hlen, hread, List.length_append, ← OpCode.size]
  cases t.decode (offset + (op.size + operand.length)) rest <;> rfl

theorem decode_of_read_error {t : Tables κ} {offset : Nat} {op : OpCode} {operand : List UInt8}
    {e : RunError} (hlen : op.operandKind.length? = some operand.length)
    (hread : t.read offset operand op.operandKind = .error e) (rest : List UInt8) :
    t.decode offset (op.encoding ++ operand ++ rest) = .error e := by
  rw [List.append_assoc, t.decode_operand offset rest hlen, hread]
  rfl

/-- An operand that is cut short is reported. -/
theorem decode_truncated (t : Tables κ) (offset : Nat) {op : OpCode} {code : List UInt8} {n : Nat}
    (hop : op.encoding <+: code) (hlen : op.operandKind.length? = some n)
    (hshort : code.length < op.size + n) : t.decode offset code = .error (.truncated offset) := by
  have hread := OpCode.read?_eq_some_iff.mpr hop
  have hcut : min n (code.length - op.size) < n := by
    have hsize : op.size ≤ code.length := hop.length_le
    omega
  cases code with
  | nil => exact absurd (List.prefix_nil.mp hop) op.encoding_ne_nil
  | cons b bs =>
    rw [decode]
    simp [hread, hlen] at hcut ⊢
    omega

/-- Code that begins with no opcode, or with one whose operand has no length, is reported with its
first byte. -/
theorem decode_unsupported (t : Tables κ) (offset : Nat) {b : UInt8} {bs : List UInt8}
    (h : ∀ op : OpCode, op.encoding <+: b :: bs → op.operandKind.length? = none) :
    t.decode offset (b :: bs) = .error (.unsupportedOpcode offset b) := by
  rw [decode]
  cases hread : OpCode.read? (b :: bs) with
  | none => rfl
  | some op => simp [h op (OpCode.read?_eq_some_iff.mp hread)]

end Tables

/-! ### Instructions -/

theorem Tables.WellFormed.exists_instruction {t : Tables κ} {bytes : List UInt8}
    (h : t.WellFormed bytes) : ∃ i : Instruction κ, i.Spelled t bytes := by
  obtain ⟨op, operand, rfl, hlen, hresolves⟩ := h
  obtain ⟨o, hkind, ho⟩ := Tables.exists_spelled hlen hresolves
  exact ⟨⟨op, o⟩, hkind, operand, rfl, ho⟩

/-- The decoder reads one instruction off the front, whatever follows. -/
theorem Instruction.Spelled.decode_append {t : Tables κ} {i : Instruction κ}
    {bytes : List UInt8} (h : i.Spelled t bytes) (offset : Nat) (rest : List UInt8) :
    t.decode offset (bytes ++ rest)
      = (t.decode (offset + bytes.length) rest).map (⟨offset, i⟩ :: ·) := by
  obtain ⟨hkind, operand, rfl, hoperand⟩ := h
  have hlen : i.op.operandKind.length? = some operand.length := hkind ▸ hoperand.length
  have hread := Tables.read_spelled offset hoperand
  rw [hkind] at hread
  exact Tables.decode_of_read hlen hread rest

/-! ### Sequences of instructions -/

/-- The decoder reads instructions off the front one after the other, whatever follows. -/
theorem Laid.decode_append {t : Tables κ} {offset stop : Nat} {chunks : List (List UInt8)}
    {ps : List (Placed κ)} (h : Laid t offset chunks ps stop) (rest : List UInt8) :
    t.decode offset (chunks.flatten ++ rest) = (t.decode stop rest).map (ps ++ ·) := by
  induction h with
  | nil => cases h : t.decode _ rest <;> simp [h, Except.map]
  | @cons offset stop i bytes chunks ps hspelled _ ih =>
    rw [List.flatten_cons, List.append_assoc, hspelled.decode_append, ih]
    cases t.decode stop rest <;> rfl

theorem Laid.decode {t : Tables κ} {offset stop : Nat} {chunks : List (List UInt8)}
    {ps : List (Placed κ)} (h : Laid t offset chunks ps stop) :
    t.decode offset chunks.flatten = .ok ps := by
  have := h.decode_append []
  rw [List.append_nil, Tables.decode] at this
  rw [this, Except.map, List.append_nil]

theorem Laid.spelled_of_mem {t : Tables κ} {offset stop : Nat} {chunks : List (List UInt8)}
    {ps : List (Placed κ)} (h : Laid t offset chunks ps stop) {p : Placed κ} (hp : p ∈ ps) :
    ∃ bytes, p.instruction.Spelled t bytes := by
  induction h with
  | nil => cases hp
  | cons hspelled _ ih =>
    rcases List.mem_cons.mp hp with rfl | hp
    · exact ⟨_, hspelled⟩
    · exact ih hp

/-- A callee that stands in laid code stands in the tables. -/
theorem Laid.method_mem {t : Tables κ} {offset stop : Nat} {chunks : List (List UInt8)}
    {ps : List (Placed κ)} (h : Laid t offset chunks ps stop) {p : Placed κ} (hp : p ∈ ps)
    {callee : κ} (hcallee : p.instruction.operand = .method callee) : callee ∈ t.methods := by
  obtain ⟨_, -, operand, -, hoperand⟩ := h.spelled_of_mem hp
  rw [hcallee] at hoperand
  cases hoperand with
  | method hfind => exact Token.mem_of_find? hfind

theorem exists_laid {t : Tables κ} (offset : Nat) {chunks : List (List UInt8)}
    (h : ∀ c ∈ chunks, t.WellFormed c) :
    ∃ ps, Laid t offset chunks ps (offset + chunks.flatten.length) := by
  induction chunks generalizing offset with
  | nil => exact ⟨[], .nil⟩
  | cons c chunks ih =>
    obtain ⟨i, hi⟩ := (h c (by simp)).exists_instruction
    obtain ⟨ps, hps⟩ := ih (offset + c.length) (fun d hd => h d (by simp [hd]))
    refine ⟨⟨offset, i⟩ :: ps, .cons hi ?_⟩
    rw [List.flatten_cons, List.length_append, ← Nat.add_assoc]
    exact hps

/-! ### Where reading stops -/

namespace Tables

/-- Code begins with an instruction, or there is something to blame. -/
theorem front_cases (t : Tables κ) (offset : Nat) {code : List UInt8} (hne : code ≠ []) :
    (∃ bytes rest, code = bytes ++ rest ∧ t.WellFormed bytes) ∨ ∃ e, t.Blames offset code e := by
  by_cases hop : ∃ op : OpCode, op.encoding <+: code ∧ op.operandKind.length? ≠ none
  · obtain ⟨op, ⟨tail, rfl⟩, hlen⟩ := hop
    obtain ⟨n, hn⟩ := Option.ne_none_iff_exists'.mp hlen
    by_cases hshort : tail.length < n
    · refine .inr ⟨_, .truncated ⟨tail, rfl⟩ hn ?_⟩
      rw [List.length_append, OpCode.size]
      omega
    · -- The operand is complete: it is the first `n` bytes behind the opcode.
      have hoperand : (tail.take n).length = n := List.length_take_of_le (by omega)
      rw [← hoperand] at hn
      have hsplit : op.encoding ++ tail = op.encoding ++ (tail.take n ++ tail.drop n) := by
        rw [List.take_append_drop]
      by_cases hresolves : t.Resolves op.operandKind (tail.take n)
      · refine .inl ⟨op.encoding ++ tail.take n, tail.drop n, ?_, op, tail.take n, rfl, hn,
          hresolves⟩
        rw [List.append_assoc, ← hsplit]
      · exact .inr ⟨_, .badToken hsplit hn hresolves⟩
  · -- No opcode that can be decoded is there, and the first byte is to blame.
    obtain ⟨b, bs, rfl⟩ := List.exists_cons_of_ne_nil hne
    refine .inr ⟨_, .unsupported rfl ?_⟩
    intro op hbegins
    by_contra hlen
    exact hop ⟨op, hbegins, hlen⟩

/-- The decoder reports what is to blame. -/
theorem Blames.decode {t : Tables κ} {offset : Nat} {code : List UInt8} {e : RunError}
    (h : t.Blames offset code e) : t.decode offset code = .error e := by
  cases h with
  | truncated hop hlen hshort => exact decode_truncated t offset hop hlen hshort
  | @badToken op operand rest hcode hlen hresolves =>
    rw [hcode, ← List.append_assoc]
    exact decode_of_read_error hlen (read_unresolved offset hresolves) rest
  | unsupported hcode hop =>
    subst hcode
    exact decode_unsupported t offset hop

/-- Code cannot both begin with an instruction and be blamed. -/
theorem Blames.not_wellFormed {t : Tables κ} {offset : Nat} {code : List UInt8} {e : RunError}
    (h : t.Blames offset code e) {bytes : List UInt8} (hbegins : bytes <+: code) :
    ¬ t.WellFormed bytes := by
  rintro ⟨op, operand, rfl, hlen, hresolves⟩
  obtain ⟨tail, rfl⟩ := hbegins
  have hop : op.encoding <+: op.encoding ++ operand ++ tail :=
    ⟨operand ++ tail, by rw [List.append_assoc]⟩
  -- No encoding of an opcode begins another one. What is blamed is about the same opcode.
  cases h with
  | @truncated op' n hop' hlen' hshort =>
    obtain ⟨tail', htail'⟩ := hop'
    rw [List.append_assoc] at htail' hshort
    obtain rfl := OpCode.eq_of_encoding_append htail'
    rw [hlen] at hlen'
    obtain rfl := Option.some.inj hlen'
    simp only [List.length_append, OpCode.size] at hshort
    omega
  | @badToken op' operand' rest' hcode hlen' hresolves' =>
    rw [List.append_assoc] at hcode
    obtain rfl := OpCode.eq_of_encoding_append hcode
    have hoperands : operand.length = operand'.length := by
      rw [hlen] at hlen'
      exact Option.some.inj hlen'
    obtain ⟨rfl, -⟩ := List.append_inj (List.append_cancel_left hcode) hoperands
    exact hresolves' hresolves
  | unsupported _ hnone =>
    rw [hnone op hop] at hlen
    cases hlen

/-- All code is cut into instructions up to its end, or up to where one is missing. -/
theorem cuts_or_stuck (t : Tables κ) (code : List UInt8) :
    (∃ chunks, t.Cuts chunks code) ∨ ∃ chunks rest, t.Stuck chunks rest code := by
  -- The induction is on the length, since an instruction is one byte or many.
  induction hlen : code.length using Nat.strongRecOn generalizing code with
  | ind n ih =>
    by_cases hne : code = []
    · exact .inl ⟨[], by simp [hne], by simp⟩
    rcases t.front_cases 0 hne with ⟨bytes, rest, rfl, hbytes⟩ | ⟨e, he⟩
    · -- One instruction is taken off; the rest is shorter.
      have hpos : 0 < bytes.length := List.length_pos_iff.mpr hbytes.ne_nil
      rw [List.length_append] at hlen
      have hall : ∀ {chunks : List (List UInt8)}, (∀ c ∈ chunks, t.WellFormed c) →
          ∀ c ∈ bytes :: chunks, t.WellFormed c := by
        intro chunks hchunks c hc
        rcases List.mem_cons.mp hc with rfl | hc
        · exact hbytes
        · exact hchunks c hc
      rcases ih rest.length (by omega) rest rfl with ⟨chunks, rfl, hchunks⟩ | ⟨chunks, more, h⟩
      · exact .inl ⟨bytes :: chunks, rfl, hall hchunks⟩
      · refine .inr ⟨bytes :: chunks, more, ?_, hall h.wellFormed, h.rest_ne_nil,
          h.no_instruction⟩
        rw [h.code_eq, List.flatten_cons, List.append_assoc]
    · exact .inr ⟨[], code, rfl, by simp, hne, fun bytes hbegins => he.not_wellFormed hbegins⟩

theorem Cuts.laid {t : Tables κ} {chunks : List (List UInt8)} {code : List UInt8}
    (h : t.Cuts chunks code) :
    ∃ ps, Laid t 0 chunks ps code.length ∧ t.decode 0 code = .ok ps := by
  obtain ⟨rfl, hchunks⟩ := h
  obtain ⟨ps, hps⟩ := exists_laid 0 hchunks
  rw [Nat.zero_add] at hps
  exact ⟨ps, hps, hps.decode⟩

/-- Stuck code is refused for the one reason there is. -/
theorem Stuck.decode {t : Tables κ} {chunks : List (List UInt8)} {rest code : List UInt8}
    (h : t.Stuck chunks rest code) : ∃ e, t.decode 0 code = .error e ∧
      ∀ e', t.Blames chunks.flatten.length rest e' ↔ e' = e := by
  obtain ⟨ps, hps⟩ := exists_laid 0 h.wellFormed
  have hcode : ∀ e, t.decode (0 + chunks.flatten.length) rest = .error e →
      t.decode 0 code = .error e := by
    intro e he
    rw [h.code_eq, hps.decode_append, he]
    rfl
  rw [Nat.zero_add] at hcode
  rcases t.front_cases chunks.flatten.length h.rest_ne_nil with ⟨bytes, more, hfront, hbytes⟩ |
    ⟨e, he⟩
  · exact absurd hbytes (h.no_instruction bytes ⟨more, hfront.symm⟩)
  · refine ⟨e, hcode e he.decode, fun e' => ⟨fun he' => ?_, fun hsame => hsame ▸ he⟩⟩
    -- The decoder gives one answer, so that there is one thing to blame.
    have hboth := he'.decode
    rw [he.decode] at hboth
    exact (Except.error.inj hboth).symm

end Tables

/-- Whatever the decoder lists is laid end to end. -/
theorem exists_laid_of_decode {b : Body κ} {ps : List (Placed κ)} (h : b.decode = .ok ps) :
    ∃ chunks, b.code = chunks.flatten ∧ Laid b.tables 0 chunks ps b.code.length := by
  rcases b.tables.cuts_or_stuck b.code with ⟨chunks, hcuts⟩ | ⟨chunks, rest, hstuck⟩
  · obtain ⟨ps', hlaid, hps'⟩ := hcuts.laid
    rw [Body.decode, hps'] at h
    cases h
    exact ⟨chunks, hcuts.1, hlaid⟩
  · obtain ⟨e, he, -⟩ := hstuck.decode
    rw [Body.decode, he] at h
    cases h

/-- **The decoder accepts exactly the grammar, and blames the first instruction that is missing.**

It succeeds on the concatenations of well-formed instructions. There is one way to cut such code,
and the decoder lists its instructions end to end from offset zero to the length of the code. All
other code is a concatenation of well-formed instructions followed by a rest that begins with none;
then the decoder fails with what is to blame at the offset where that rest begins. -/
theorem decode_grammar (b : Body κ) :
    ((∃ ps, b.decode = .ok ps) ↔ ∃ chunks, b.tables.Cuts chunks b.code) ∧
    (∀ chunks chunks', b.tables.Cuts chunks b.code → b.tables.Cuts chunks' b.code →
      chunks = chunks') ∧
    (∀ chunks ps, b.tables.Cuts chunks b.code → b.decode = .ok ps →
      Laid b.tables 0 chunks ps b.code.length) ∧
    ((¬ ∃ chunks, b.tables.Cuts chunks b.code) →
      ∃ chunks rest, b.tables.Stuck chunks rest b.code) ∧
    ∀ chunks rest, b.tables.Stuck chunks rest b.code → ∃ e, b.decode = .error e ∧
      ∀ e', b.tables.Blames chunks.flatten.length rest e' ↔ e' = e := by
  refine ⟨⟨?_, ?_⟩, ?_, ?_, ?_, ?_⟩
  · rintro ⟨ps, hps⟩
    rcases b.tables.cuts_or_stuck b.code with hcuts | ⟨chunks, rest, hstuck⟩
    · exact hcuts
    · obtain ⟨e, he, -⟩ := hstuck.decode
      rw [Body.decode, he] at hps
      cases hps
  · rintro ⟨chunks, hcuts⟩
    obtain ⟨ps, -, hps⟩ := hcuts.laid
    exact ⟨ps, hps⟩
  · rintro chunks chunks' ⟨hcode, hall⟩ ⟨hcode', hall'⟩
    exact Tables.eq_of_flatten_eq hall hall' (hcode.symm.trans hcode')
  · intro chunks ps hcuts hps
    obtain ⟨ps', hlaid, hps'⟩ := hcuts.laid
    rw [Body.decode, hps'] at hps
    cases hps
    exact hlaid
  · intro hnot
    exact (b.tables.cuts_or_stuck b.code).resolve_left hnot
  · intro chunks rest hstuck
    exact hstuck.decode

/-! ### Code with other callees -/

theorem Tables.method?_map (f : κ → μ) (t : Tables κ) (token : UInt32) :
    (t.map f).method? token = (t.method? token).map f := by
  unfold Tables.method? Token.find? Tables.map
  split
  · cases Token.row? token with
    | none => rfl
    | some row => exact List.getElem?_map
  · rfl

/-- What a token stands for is looked up in the tables, and only callees are changed there. -/
theorem Tables.read_map (f : κ → μ) (t : Tables κ) (offset : Nat) (bytes : List UInt8)
    (kind : OperandKind) :
    (t.map f).read offset bytes kind = (t.read offset bytes kind).map (Operand.map f) := by
  cases kind with
  | method =>
    simp only [Tables.read, resolve, Tables.method?_map]
    cases t.method? (UInt32.ofNat (LittleEndian.read bytes)) <;> rfl
  | string =>
    show (resolve offset t.string? bytes).map _ = _
    rw [Tables.read]
    cases resolve offset t.string? bytes <;> rfl
  | type =>
    show (resolve offset t.type? bytes).map _ = _
    rw [Tables.read]
    cases resolve offset t.type? bytes <;> rfl
  | _ => rfl

/-- Replacing the callees in the tables replaces them in what is decoded, and changes no error. -/
theorem Tables.decode_map (f : κ → μ) (t : Tables κ) (offset : Nat) (code : List UInt8) :
    (t.map f).decode offset code = (t.decode offset code).map (List.map (Placed.map f)) := by
  -- Lengths and offsets do not depend on the callees: both decoders take the same branches.
  fun_induction Tables.decode t offset code with
  | case1 =>
    rw [Tables.decode]
    rfl
  | case2 offset b bs code hop =>
    rw [Tables.decode, hop]
    rfl
  | case3 offset b bs code op hop hlength =>
    rw [Tables.decode, hop]
    simp only [hlength]
    rfl
  | case4 offset b bs code op hop n hlength operand hshort =>
    rw [Tables.decode, hop]
    simp only [hlength]
    exact if_pos hshort
  | case5 offset b bs code op hop n hlength operand hlong ih =>
    rw [Tables.decode, hop]
    simp only [hlength]
    rw [if_neg hlong, Tables.read_map, ih]
    cases t.read offset operand op.operandKind with
    | error e => rfl
    | ok o => cases t.decode (offset + (op.size + n)) (code.drop (op.size + n)) <;> rfl

theorem Body.decode_map (f : κ → μ) (b : Body κ) :
    (b.map f).decode = b.decode.map (List.map (Placed.map f)) :=
  b.tables.decode_map f 0 b.code

/-- A body is decoded by decoding its outline and filling in its callees. -/
theorem Body.decode_eq_outline (b : Body κ) :
    b.decode = b.outline.decode.map (List.map (Placed.map b.callee)) := by
  have htables : b.outline.tables.map b.callee = b.tables := by
    have hmethods : (List.finRange b.tables.methods.length).map b.callee = b.tables.methods :=
      List.map_get_finRange b.tables.methods
    rw [Outline.tables, Tables.map]
    exact congrArg (Tables.mk _ · _) hmethods
  rw [Body.decode, ← htables, Tables.decode_map]
  rfl

end CallAdapter
