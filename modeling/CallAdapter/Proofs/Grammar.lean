import CallAdapter.Proofs.Words

/-!
# The grammar of code

Which byte strings are code, and what they say, told without the decoder.

* `Tables.WellFormed` says when a byte string is one instruction. The tables matter only through
  the tokens that may stand in operands.
* `Operand.Spelled` and `Instruction.Spelled` say which instruction the bytes stand for, and
  `Laid` lays instructions end to end, each with the offset of its first byte.
* `Tables.Blames` says what is wrong with code that begins with no instruction.

Since no instruction begins another one (`Tables.WellFormed.eq_of_append`), code can be cut into
instructions in at most one way (`Tables.eq_of_flatten_eq`).
-/

namespace CallAdapter

variable {κ : Type}

/-! ### Opcodes at the head of code -/

namespace OpCode

theorem read?_eq_some_iff {code : List UInt8} {op : OpCode} :
    read? code = some op ↔ op.encoding <+: code := by
  constructor
  · intro h
    have := List.find?_some h
    exact List.isPrefixOf_iff_prefix.mp this
  · rintro ⟨rest, rfl⟩
    exact read?_encoding_append op rest

/-- No encoding begins another one. -/
theorem eq_of_encoding_append {op op' : OpCode} {rest rest' : List UInt8}
    (h : op.encoding ++ rest = op'.encoding ++ rest') : op = op' := by
  have hop := read?_encoding_append op rest
  rw [h, read?_encoding_append] at hop
  exact (Option.some.inj hop).symm

theorem encoding_ne_nil (op : OpCode) : op.encoding ≠ [] :=
  List.ne_nil_of_length_pos op.size_pos

end OpCode

/-! ### Well-formed instructions -/

namespace Tables

/-- For the kinds of operands that are tokens, the byte of their table and the number of its
rows. -/
def tokenTable (t : Tables κ) : OperandKind → Option (UInt8 × Nat)
  | .string => some (Token.stringTable, t.strings.length)
  | .method => some (Token.methodTable, t.methods.length)
  | .type => some (Token.typeTable, t.types.length)
  | _ => none

/-- The bytes of an operand refer to something: where the kind asks for a token, they are a token
of the right table whose row exists. -/
def Resolves (t : Tables κ) (kind : OperandKind) (operand : List UInt8) : Prop :=
  ∀ tableByte rows, t.tokenTable kind = some (tableByte, rows) →
    Token.table (Token.ofBytes operand) = tableByte ∧
      ∃ row < rows, Token.row? (Token.ofBytes operand) = some row

/-- The bytes are one instruction: the encoding of an opcode whose kind of operand has a length,
and exactly that many bytes for an operand that refers to something. -/
def WellFormed (t : Tables κ) (bytes : List UInt8) : Prop :=
  ∃ (op : OpCode) (operand : List UInt8), bytes = op.encoding ++ operand ∧
    op.operandKind.length? = some operand.length ∧ t.Resolves op.operandKind operand

theorem WellFormed.ne_nil {t : Tables κ} {bytes : List UInt8} (h : t.WellFormed bytes) :
    bytes ≠ [] := by
  obtain ⟨op, operand, rfl, -, -⟩ := h
  simp [op.encoding_ne_nil]

/-- No instruction begins another one. -/
theorem WellFormed.eq_of_append {t : Tables κ} {bytes bytes' rest rest' : List UInt8}
    (h : t.WellFormed bytes) (h' : t.WellFormed bytes') (heq : bytes ++ rest = bytes' ++ rest') :
    bytes = bytes' ∧ rest = rest' := by
  obtain ⟨op, operand, rfl, hlen, -⟩ := h
  obtain ⟨op', operand', rfl, hlen', -⟩ := h'
  rw [List.append_assoc, List.append_assoc] at heq
  obtain rfl := OpCode.eq_of_encoding_append heq
  have hoperands : operand.length = operand'.length := by
    rw [hlen] at hlen'
    exact Option.some.inj hlen'
  obtain ⟨rfl, hrest⟩ := List.append_inj (List.append_cancel_left heq) hoperands
  exact ⟨rfl, hrest⟩

/-- Code can be cut into instructions in at most one way. -/
theorem eq_of_flatten_eq {t : Tables κ} {chunks chunks' : List (List UInt8)}
    (h : ∀ c ∈ chunks, t.WellFormed c) (h' : ∀ c ∈ chunks', t.WellFormed c)
    (heq : chunks.flatten = chunks'.flatten) : chunks = chunks' := by
  induction chunks generalizing chunks' with
  | nil =>
    cases chunks' with
    | nil => rfl
    | cons c' _ =>
      have hnil : c' = [] := (List.append_eq_nil_iff.mp heq.symm).1
      exact absurd hnil (h' c' (by simp)).ne_nil
  | cons c chunks ih =>
    cases chunks' with
    | nil =>
      have hnil : c = [] := (List.append_eq_nil_iff.mp heq).1
      exact absurd hnil (h c (by simp)).ne_nil
    | cons c' chunks' =>
      -- An instruction tells its own length, so that the first pieces are the same.
      obtain ⟨rfl, hrest⟩ := (h c (by simp)).eq_of_append (h' c' (by simp)) heq
      rw [ih (fun d hd => h d (by simp [hd])) (fun d hd => h' d (by simp [hd])) hrest]

/-- The code is these instructions, one after the other. -/
def Cuts (t : Tables κ) (chunks : List (List UInt8)) (code : List UInt8) : Prop :=
  code = chunks.flatten ∧ ∀ c ∈ chunks, t.WellFormed c

/-- The code is these instructions, one after the other, and then a rest that begins with no
instruction. -/
structure Stuck (t : Tables κ) (chunks : List (List UInt8)) (rest code : List UInt8) : Prop where
  code_eq : code = chunks.flatten ++ rest
  wellFormed : ∀ c ∈ chunks, t.WellFormed c
  rest_ne_nil : rest ≠ []
  no_instruction : ∀ bytes, bytes <+: rest → ¬ t.WellFormed bytes

end Tables

/-! ### What the bytes say -/

/-- The bytes that an operand is written with. What a token stands for is found in the tables. -/
inductive Operand.Spelled (t : Tables κ) : Operand κ → List UInt8 → Prop
  | none : Spelled t .none []
  | byte (b : UInt8) : Spelled t (.byte b) [b]
  | int32 (n : Int32) : Spelled t (.int32 n) (LittleEndian.write 4 n.toUInt32.toNat)
  | int64 (n : Int64) : Spelled t (.int64 n) (LittleEndian.write 8 n.toUInt64.toNat)
  | float32 (x : Binary.Single) : Spelled t (.float32 x) (LittleEndian.write 4 x.word)
  | float64 (x : Binary.Double) : Spelled t (.float64 x) (LittleEndian.write 8 x.word)
  | string {token : UInt32} {s : String} : t.string? token = some s →
      Spelled t (.string s) (LittleEndian.write 4 token.toNat)
  | method {token : UInt32} {callee : κ} : t.method? token = some callee →
      Spelled t (.method callee) (LittleEndian.write 4 token.toNat)
  | type {token : UInt32} {type : ValueType} : t.type? token = some type →
      Spelled t (.type type) (LittleEndian.write 4 token.toNat)

/-- The bytes that an instruction is written with: its opcode, and an operand of the kind that
the opcode asks for. -/
def Instruction.Spelled (t : Tables κ) (i : Instruction κ) (bytes : List UInt8) : Prop :=
  i.operand.kind = i.op.operandKind ∧
    ∃ operand, bytes = i.op.encoding ++ operand ∧ i.operand.Spelled t operand

/-- Instructions laid end to end from one offset to another, each given with its bytes. -/
inductive Laid (t : Tables κ) : Nat → List (List UInt8) → List (Placed κ) → Nat → Prop
  | nil {offset : Nat} : Laid t offset [] [] offset
  | cons {offset stop : Nat} {i : Instruction κ} {bytes : List UInt8}
      {chunks : List (List UInt8)} {ps : List (Placed κ)} : i.Spelled t bytes →
      Laid t (offset + bytes.length) chunks ps stop →
      Laid t offset (bytes :: chunks) (⟨offset, i⟩ :: ps) stop

/-- What is wrong with code at some offset that begins with no instruction. -/
inductive Tables.Blames (t : Tables κ) (offset : Nat) (code : List UInt8) : RunError → Prop
  /-- There are fewer bytes than the operand takes. -/
  | truncated {op : OpCode} {n : Nat} : op.encoding <+: code →
      op.operandKind.length? = some n → code.length < op.size + n →
      Blames t offset code (.truncated offset)
  /-- The operand is there, but it is a token that refers to nothing. -/
  | badToken {op : OpCode} {operand rest : List UInt8} :
      code = op.encoding ++ (operand ++ rest) →
      op.operandKind.length? = some operand.length → ¬ t.Resolves op.operandKind operand →
      Blames t offset code (.badToken offset (Token.ofBytes operand))
  /-- The code begins with no opcode, or with one whose operand has no length. -/
  | unsupported {b : UInt8} {bs : List UInt8} : code = b :: bs →
      (∀ op : OpCode, op.encoding <+: code → op.operandKind.length? = none) →
      Blames t offset code (.unsupportedOpcode offset b)

end CallAdapter
