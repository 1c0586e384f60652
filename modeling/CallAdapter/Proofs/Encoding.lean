import CallAdapter.Proofs.Decoding
import CallAdapter.Proofs.RowMaps
import CallAdapter.Procedure.Basic

/-!
# Decoding undoes encoding

An operand gets its row while the tables still grow. Its token is read much later, against the
finished tables. Two facts carry the round trip:

* rows keep their place: the tables only grow at their ends (`Tables.Extends`);
* rows are made in order: the first row that a token cannot hold is the row `rowLimit - 1`, whose
  token names no row. So an overlong table is noticed before any later row could be taken for an
  earlier one (`findRow_overflow`).

`encode_spelled` and `encode_overflow` say what this means for one instruction, and
`encodeAll_laid` and `encodeAll_overflow` for a sequence, by induction along the encoder. The main
result is `decode_finish`.
-/

namespace CallAdapter

variable {κ : Type}

/-! ### Rows -/

theorem getElem?_of_prefix {α : Type} {xs ys : List α} (h : xs <+: ys) {row : Nat} {a : α}
    (ha : xs[row]? = some a) : ys[row]? = some a := by
  obtain ⟨more, rfl⟩ := h
  rw [List.getElem?_append_left (List.getElem?_eq_some_iff.mp ha).1, ha]

section Rows

variable {α : Type} [BEq α]

/-- An entry keeps the row that it has, or it is new and its row is the next one. -/
theorem rowOf_cases (entries : List α) (a : α) :
    (∃ row b, entries[row]? = some b ∧ (b == a) = true ∧ rowOf entries a = (row, entries)) ∨
      (∀ b ∈ entries, (b == a) = false) ∧ rowOf entries a = (entries.length, entries ++ [a]) := by
  unfold rowOf
  split
  · next row hrow =>
    obtain ⟨hlt, hsame, -⟩ := List.findIdx?_eq_some_iff_getElem.mp hrow
    exact .inl ⟨row, entries[row], List.getElem?_eq_getElem hlt, hsame, rfl⟩
  · next hrow => exact .inr ⟨List.findIdx?_eq_none_iff.mp hrow, rfl⟩

theorem rowOf_extends (entries : List α) (a : α) : entries <+: (rowOf entries a).2 := by
  rcases rowOf_cases entries a with ⟨_, _, _, _, h⟩ | ⟨_, h⟩
  · rw [h]
  · rw [h]
    exact List.prefix_append _ _

theorem mem_rowOf {entries : List α} {a b : α} (h : b ∈ (rowOf entries a).2) :
    b ∈ entries ∨ b = a := by
  rcases rowOf_cases entries a with ⟨_, _, _, _, heq⟩ | ⟨_, heq⟩
  · rw [heq] at h
    exact .inl h
  · rw [heq] at h
    simpa using h

theorem length_rowOf_le (entries : List α) (a : α) :
    (rowOf entries a).2.length ≤ entries.length + 1 := by
  rcases rowOf_cases entries a with ⟨_, _, _, _, heq⟩ | ⟨_, heq⟩
  · rw [heq]
    exact Nat.le_succ _
  · rw [heq, List.length_append, List.length_singleton]

/-- While the table is short enough, the token of an entry finds it, or one that is the same, in
whatever the table grows to. -/
theorem findRow_rowOf (tableByte : UInt8) {entries whole : List α} {a : α}
    (hfits : (rowOf entries a).2.length < Token.rowLimit)
    (hwhole : (rowOf entries a).2 <+: whole) :
    ∃ b, Token.find? tableByte whole (Token.make tableByte (rowOf entries a).1) = some b ∧
      (b = a ∨ (b == a) = true) := by
  rcases rowOf_cases entries a with ⟨row, b, hb, hsame, heq⟩ | ⟨_, heq⟩
  · rw [heq] at hfits hwhole ⊢
    have hrow : row < entries.length := (List.getElem?_eq_some_iff.mp hb).1
    refine ⟨b, ?_, .inr hsame⟩
    rw [Token.find?_make tableByte whole (Nat.lt_of_le_of_lt hrow hfits)]
    exact getElem?_of_prefix hwhole hb
  · rw [heq] at hfits hwhole ⊢
    simp only [List.length_append, List.length_singleton] at hfits
    refine ⟨a, ?_, .inl rfl⟩
    rw [Token.find?_make tableByte whole hfits]
    exact getElem?_of_prefix hwhole (by simp)

/-- The entry that makes a table too long gets a token that finds nothing. -/
theorem findRow_overflow (tableByte : UInt8) {entries : List α} {a : α}
    (hfits : entries.length < Token.rowLimit)
    (hover : ¬ (rowOf entries a).2.length < Token.rowLimit) {β : Type} (whole : List β) :
    Token.find? tableByte whole (Token.make tableByte (rowOf entries a).1) = none := by
  rcases rowOf_cases entries a with ⟨row, b, _, _, heq⟩ | ⟨_, heq⟩
  · rw [heq] at hover
    exact absurd hfits hover
  · rw [heq] at hover ⊢
    simp only [List.length_append, List.length_singleton] at hover
    exact Token.find?_make_overflow tableByte whole (by omega)

end Rows

/-! ### Tables -/

namespace Tables

/-- Every row has a token. -/
structure Addressable (t : Tables κ) : Prop where
  strings : t.strings.length < Token.rowLimit
  methods : t.methods.length < Token.rowLimit
  types : t.types.length < Token.rowLimit

/-- The tables with more rows at their ends. -/
structure Extends (t u : Tables κ) : Prop where
  strings : t.strings <+: u.strings
  methods : t.methods <+: u.methods
  types : t.types <+: u.types

theorem Extends.refl (t : Tables κ) : t.Extends t :=
  ⟨List.prefix_refl _, List.prefix_refl _, List.prefix_refl _⟩

theorem Extends.trans {t u v : Tables κ} (h : t.Extends u) (h' : u.Extends v) : t.Extends v :=
  ⟨h.strings.trans h'.strings, h.methods.trans h'.methods, h.types.trans h'.types⟩

theorem Addressable.of_extends {t u : Tables κ} (h : u.Addressable) (ht : t.Extends u) :
    t.Addressable :=
  ⟨ht.strings.length_le.trans_lt h.strings, ht.methods.length_le.trans_lt h.methods,
    ht.types.length_le.trans_lt h.types⟩

theorem addressable_empty : (empty : Tables κ).Addressable := by
  have h : 0 < Token.rowLimit := by decide
  exact ⟨h, h, h⟩

end Tables

/-! ### Operands and instructions -/

variable [BEq κ]

/-- Operands that the tables do not tell apart: they are equal, or callees that are the same. -/
inductive Operand.Alike : Operand κ → Operand κ → Prop
  | refl (o : Operand κ) : Alike o o
  | method {a b : κ} : (a == b) = true → Alike (.method a) (.method b)

def Instruction.Alike (i j : Instruction κ) : Prop := i.op = j.op ∧ i.operand.Alike j.operand

theorem Operand.Alike.kind_eq {o o' : Operand κ} (h : o.Alike o') : o.kind = o'.kind := by
  cases h <;> rfl

namespace Tables

theorem write_extends (t : Tables κ) (o : Operand κ) : t.Extends (t.write o).2 := by
  cases o with
  | string s => exact ⟨rowOf_extends _ _, List.prefix_refl _, List.prefix_refl _⟩
  | method callee => exact ⟨List.prefix_refl _, rowOf_extends _ _, List.prefix_refl _⟩
  | type type => exact ⟨List.prefix_refl _, List.prefix_refl _, rowOf_extends _ _⟩
  | _ => exact .refl t

theorem length_write (t : Tables κ) (o : Operand κ) :
    o.kind.length? = some (t.write o).1.length := by
  cases o <;> simp [Operand.kind, OperandKind.length?, write, tokenBytes, LittleEndian.length_write]

/-- What is written for an operand spells it, in whatever the tables grow to. -/
theorem write_spelled {t u : Tables κ} {o : Operand κ} (hu : (t.write o).2.Extends u)
    (hfits : (t.write o).2.Addressable) :
    ∃ o' : Operand κ, o'.Alike o ∧ o'.Spelled u (t.write o).1 := by
  cases o with
  | none => exact ⟨_, .refl _, .none⟩
  | byte b => exact ⟨_, .refl _, .byte b⟩
  | int32 n => exact ⟨_, .refl _, .int32 n⟩
  | int64 n => exact ⟨_, .refl _, .int64 n⟩
  | float32 x => exact ⟨_, .refl _, .float32 x⟩
  | float64 x => exact ⟨_, .refl _, .float64 x⟩
  | string s =>
    obtain ⟨s', hfind, hsame⟩ := findRow_rowOf Token.stringTable hfits.strings hu.strings
    obtain rfl : s' = s := by simpa using hsame
    exact ⟨_, .refl _, .string hfind⟩
  | method callee =>
    -- Another callee that is the same may have come first, and then that one is read back.
    obtain ⟨callee', hfind, hsame⟩ := findRow_rowOf Token.methodTable hfits.methods hu.methods
    refine ⟨.method callee', ?_, .method hfind⟩
    rcases hsame with rfl | hsame
    · exact .refl _
    · exact .method hsame
  | type type =>
    obtain ⟨type', hfind, hsame⟩ := findRow_rowOf Token.typeTable hfits.types hu.types
    obtain rfl : type' = type := by simpa using hsame
    exact ⟨_, .refl _, .type hfind⟩

/-- The operand that makes a table too long is written with a token that refers to nothing. -/
theorem write_overflow {t : Tables κ} {o : Operand κ} (hfits : t.Addressable)
    (hover : ¬ (t.write o).2.Addressable) (u : Tables κ) :
    ¬ u.Resolves o.kind (t.write o).1 := by
  have hunfound : ∀ {α : Type} (tableByte : UInt8) (entries : List α) (row : Nat),
      Token.find? tableByte entries (Token.make tableByte row) = none →
      ¬ (Token.table (Token.ofBytes (tokenBytes tableByte row)) = tableByte ∧
        ∃ r < entries.length, Token.row? (Token.ofBytes (tokenBytes tableByte row)) = some r) := by
    intro α tableByte entries row hnone
    rw [tokenBytes, Token.ofBytes_write, ← Token.find?_isSome_iff, hnone]
    simp
  intro hresolves
  -- Only a token grows a table, and its row is then the first one that no token can name.
  cases o with
  | string s =>
    have hlong : ¬ (rowOf t.strings s).2.length < Token.rowLimit := by
      intro hshort
      exact hover ⟨hshort, hfits.methods, hfits.types⟩
    exact hunfound _ u.strings _ (findRow_overflow _ hfits.strings hlong _) (hresolves _ _ rfl)
  | method callee =>
    have hlong : ¬ (rowOf t.methods callee).2.length < Token.rowLimit := by
      intro hshort
      exact hover ⟨hfits.strings, hshort, hfits.types⟩
    exact hunfound _ u.methods _ (findRow_overflow _ hfits.methods hlong _) (hresolves _ _ rfl)
  | type type =>
    have hlong : ¬ (rowOf t.types type).2.length < Token.rowLimit := by
      intro hshort
      exact hover ⟨hfits.strings, hfits.methods, hshort⟩
    exact hunfound _ u.types _ (findRow_overflow _ hfits.types hlong _) (hresolves _ _ rfl)
  | _ => exact hover hfits

/-! ### One instruction -/

theorem encode_eq_ok {t u : Tables κ} {i : Instruction κ} {bytes : List UInt8}
    (h : t.encode i = .ok (bytes, u)) : i.operand.kind = i.op.operandKind ∧
      bytes = i.op.encoding ++ (t.write i.operand).1 ∧ u = (t.write i.operand).2 := by
  unfold encode Instruction.check at h
  by_cases hkind : i.operand.kind = i.op.operandKind
  · rw [if_pos hkind] at h
    cases h
    exact ⟨hkind, rfl, rfl⟩
  · rw [if_neg hkind] at h
    cases h

theorem encode_extends {t u : Tables κ} {i : Instruction κ} {bytes : List UInt8}
    (h : t.encode i = .ok (bytes, u)) : t.Extends u := by
  obtain ⟨-, -, rfl⟩ := encode_eq_ok h
  exact t.write_extends i.operand

/-- An instruction takes as many bytes as were measured for it. -/
theorem encode_length {t u : Tables κ} {i : Instruction κ} {bytes : List UInt8}
    (h : t.encode i = .ok (bytes, u)) : i.length = .ok bytes.length := by
  obtain ⟨hkind, rfl, -⟩ := encode_eq_ok h
  have hoperand := t.length_write i.operand
  rw [hkind] at hoperand
  rw [Instruction.length, OpCode.length?, hoperand, Option.map_some, List.length_append,
    OpCode.size]

theorem encode_spelled {t u v : Tables κ} {i : Instruction κ} {bytes : List UInt8}
    (h : t.encode i = .ok (bytes, u)) (hfits : u.Addressable) (hv : u.Extends v) :
    ∃ i' : Instruction κ, i'.Alike i ∧ i'.Spelled v bytes := by
  obtain ⟨hkind, rfl, rfl⟩ := encode_eq_ok h
  obtain ⟨o, halike, hspelled⟩ := write_spelled hv hfits
  exact ⟨⟨i.op, o⟩, ⟨rfl, halike⟩, halike.kind_eq.trans hkind, _, rfl, hspelled⟩

/-- Against whatever tables it is read, the instruction that makes a table too long is refused. -/
theorem encode_overflow {t u : Tables κ} {i : Instruction κ} {bytes : List UInt8}
    (h : t.encode i = .ok (bytes, u)) (hfits : t.Addressable) (hover : ¬ u.Addressable)
    (v : Tables κ) (offset : Nat) (rest : List UInt8) :
    ∃ token, v.decode offset (bytes ++ rest) = .error (.badToken offset token) := by
  obtain ⟨hkind, rfl, rfl⟩ := encode_eq_ok h
  have hlen := t.length_write i.operand
  have hunresolved := write_overflow hfits hover v
  rw [hkind] at hlen hunresolved
  refine ⟨_, Blames.decode (.badToken (List.append_assoc _ _ _) hlen hunresolved)⟩

/-! ### Sequences of instructions -/

theorem encodeAll_cons {t u : Tables κ} {i : Instruction κ} {is : List (Instruction κ)}
    {code : List UInt8} (h : t.encodeAll (i :: is) = .ok (code, u)) :
    ∃ bytes rest v, t.encode i = .ok (bytes, v) ∧ v.encodeAll is = .ok (rest, u) ∧
      code = bytes ++ rest := by
  simp only [encodeAll, bind, Except.bind] at h
  split at h
  · cases h
  · next head hhead =>
    split at h
    · cases h
    · next tail htail =>
      cases h
      exact ⟨head.1, tail.1, head.2, hhead, htail, rfl⟩

theorem encodeAll_cons_of {t u v : Tables κ} {i : Instruction κ} {is : List (Instruction κ)}
    {bytes rest : List UInt8} (hhead : t.encode i = .ok (bytes, v))
    (htail : v.encodeAll is = .ok (rest, u)) : t.encodeAll (i :: is) = .ok (bytes ++ rest, u) := by
  rw [encodeAll, hhead]
  show (v.encodeAll is >>= _) = _
  rw [htail]
  rfl

theorem encodeAll_extends {t u : Tables κ} {is : List (Instruction κ)} {code : List UInt8}
    (h : t.encodeAll is = .ok (code, u)) : t.Extends u := by
  induction is generalizing t code with
  | nil =>
    cases h
    exact .refl _
  | cons i is ih =>
    obtain ⟨bytes, rest, v, hhead, htail, -⟩ := encodeAll_cons h
    exact (encode_extends hhead).trans (ih htail)

/-- The code of instructions lays them end to end. Read against the finished tables, each is the
instruction that was written, at the offset that the ones before it measure to. -/
theorem encodeAll_laid {t u : Tables κ} {is : List (Instruction κ)} {code : List UInt8}
    (h : t.encodeAll is = .ok (code, u)) (hfits : u.Addressable) (offset : Nat) :
    ∃ chunks ps, code = chunks.flatten ∧ Laid u offset chunks ps (offset + code.length) ∧
      List.Forall₂ (fun p i => p.instruction.Alike i) ps is ∧
      ∀ k p, ps[k]? = some p → ∃ n, measure (is.take k) = .ok n ∧ p.offset = offset + n := by
  induction is generalizing t code offset with
  | nil =>
    cases h
    exact ⟨[], [], rfl, .nil, .nil, by simp⟩
  | cons i is ih =>
    obtain ⟨bytes, rest, v, hhead, htail, rfl⟩ := encodeAll_cons h
    -- Tables only grow, so that a token that is written now refers to the same entry in the end.
    have hv : v.Extends u := encodeAll_extends htail
    obtain ⟨i', halike, hspelled⟩ := encode_spelled hhead (hfits.of_extends hv) hv
    obtain ⟨chunks, ps, rfl, hlaid, hsame, hplaces⟩ := ih htail (offset + bytes.length)
    refine ⟨bytes :: chunks, ⟨offset, i'⟩ :: ps, rfl, .cons hspelled ?_, .cons halike hsame, ?_⟩
    · rw [List.length_append, ← Nat.add_assoc]
      exact hlaid
    · intro k p hp
      cases k with
      | zero =>
        cases hp
        exact ⟨0, rfl, rfl⟩
      | succ k =>
        obtain ⟨n, hn, hoffset⟩ := hplaces k p hp
        refine ⟨bytes.length + n, ?_, by omega⟩
        rw [List.take_succ_cons, measure, encode_length hhead, hn]
        rfl

/-- Code with a table that is too long is refused at the token of the instruction that makes it too
long, behind the code `front` of those before it. -/
theorem encodeAll_overflow {t u : Tables κ} {is : List (Instruction κ)} {code : List UInt8}
    (h : t.encodeAll is = .ok (code, u)) (hfits : t.Addressable) (hover : ¬ u.Addressable)
    (offset : Nat) :
    ∃ k front v front' v' token, t.encodeAll (is.take k) = .ok (front, v) ∧ v.Addressable ∧
      t.encodeAll (is.take (k + 1)) = .ok (front', v') ∧ ¬ v'.Addressable ∧
      u.decode offset code = .error (.badToken (offset + front.length) token) := by
  induction is generalizing t code offset with
  | nil =>
    cases h
    exact absurd hfits hover
  | cons i is ih =>
    obtain ⟨bytes, rest, v, hhead, htail, rfl⟩ := encodeAll_cons h
    by_cases hv : v.Addressable
    · -- This instruction is still read; the one to blame comes later.
      have hextends : v.Extends u := encodeAll_extends htail
      obtain ⟨i', -, hspelled⟩ := encode_spelled hhead hv hextends
      obtain ⟨k, front, w, front', w', token, hfront, hw, hfront', hw', hrest⟩ :=
        ih htail hv (offset + bytes.length)
      refine ⟨k + 1, bytes ++ front, w, bytes ++ front', w', token, encodeAll_cons_of hhead hfront,
        hw, encodeAll_cons_of hhead hfront', hw', ?_⟩
      rw [hspelled.decode_append, hrest, List.length_append, Nat.add_assoc]
      rfl
    · obtain ⟨token, htoken⟩ := encode_overflow hhead hfits hv u offset rest
      exact ⟨0, [], t, bytes ++ [], v, token, rfl, hfits, encodeAll_cons_of hhead rfl, hv, htoken⟩

/-- A callee in the tables was there before or is an operand. -/
theorem encodeAll_methods {t u : Tables κ} {is : List (Instruction κ)} {code : List UInt8}
    (h : t.encodeAll is = .ok (code, u)) {callee : κ} (hmem : callee ∈ u.methods) :
    callee ∈ t.methods ∨ ∃ i ∈ is, i.operand = .method callee := by
  induction is generalizing t code with
  | nil =>
    cases h
    exact .inl hmem
  | cons i is ih =>
    obtain ⟨bytes, rest, v, hhead, htail, -⟩ := encodeAll_cons h
    obtain ⟨-, -, rfl⟩ := encode_eq_ok hhead
    rcases ih htail with hbefore | ⟨j, hj, hoperand⟩
    · cases hoperand : i.operand with
      | method c =>
        rw [hoperand] at hbefore
        rcases mem_rowOf hbefore with hbefore | rfl
        · exact .inl hbefore
        · exact .inr ⟨i, by simp, hoperand⟩
      | _ =>
        rw [hoperand] at hbefore
        exact .inl hbefore
    · exact .inr ⟨j, by simp [hj], hoperand⟩

theorem write_length_le (t : Tables κ) (o : Operand κ) :
    (t.write o).2.strings.length ≤ t.strings.length + (if o.kind = .string then 1 else 0) ∧
    (t.write o).2.methods.length ≤ t.methods.length + (if o.kind = .method then 1 else 0) ∧
    (t.write o).2.types.length ≤ t.types.length + (if o.kind = .type then 1 else 0) := by
  cases o with
  | string s => exact ⟨length_rowOf_le _ _, Nat.le_refl _, Nat.le_refl _⟩
  | method callee => exact ⟨Nat.le_refl _, length_rowOf_le _ _, Nat.le_refl _⟩
  | type type => exact ⟨Nat.le_refl _, Nat.le_refl _, length_rowOf_le _ _⟩
  | _ => exact ⟨Nat.le_refl _, Nat.le_refl _, Nat.le_refl _⟩

theorem encodeAll_length_le {t u : Tables κ} {is : List (Instruction κ)} {code : List UInt8}
    (h : t.encodeAll is = .ok (code, u)) :
    u.strings.length ≤ t.strings.length + is.countP (·.operand.kind = .string) ∧
    u.methods.length ≤ t.methods.length + is.countP (·.operand.kind = .method) ∧
    u.types.length ≤ t.types.length + is.countP (·.operand.kind = .type) := by
  induction is generalizing t code with
  | nil =>
    cases h
    simp
  | cons i is ih =>
    obtain ⟨bytes, rest, v, hhead, htail, -⟩ := encodeAll_cons h
    obtain ⟨-, -, rfl⟩ := encode_eq_ok hhead
    obtain ⟨hstrings, hmethods, htypes⟩ := ih htail
    obtain ⟨hstrings', hmethods', htypes'⟩ := t.write_length_le i.operand
    simp only [List.countP_cons, decide_eq_true_eq]
    exact ⟨by omega, by omega, by omega⟩

end Tables

/-! ### Bodies -/

theorem Draft.finish_eq_ok {d : Draft κ} {b : Body κ} (h : d.finish = .ok b) :
    Tables.empty.encodeAll d.code = .ok (b.code, b.tables) ∧ b.locals = d.locals.types := by
  simp only [Draft.finish_eq, bind, Except.bind] at h
  split at h
  · cases h
  · split at h
    · cases h
    · next out hout =>
      cases h
      exact ⟨hout, rfl⟩

/-- The kinds of operands that are given rows in the tables. -/
def tokenKinds : List OperandKind := [.string, .method, .type]

/-- A table has no more rows than there are operands of its kind. -/
theorem Draft.addressable_of_count {d : Draft κ} {b : Body κ} (h : d.finish = .ok b)
    (hcount : ∀ kind ∈ tokenKinds, d.code.countP (·.operand.kind = kind) < Token.rowLimit) :
    b.tables.Addressable := by
  obtain ⟨hcode, -⟩ := Draft.finish_eq_ok h
  obtain ⟨hstrings, hmethods, htypes⟩ := Tables.encodeAll_length_le hcode
  simp only [Tables.empty, List.length_nil, Nat.zero_add] at hstrings hmethods htypes
  exact ⟨hstrings.trans_lt (hcount _ (by simp [tokenKinds])),
    hmethods.trans_lt (hcount _ (by simp [tokenKinds])),
    htypes.trans_lt (hcount _ (by simp [tokenKinds]))⟩

theorem Draft.decode_of_not_addressable {d : Draft κ} {b : Body κ} (h : d.finish = .ok b)
    (hover : ¬ b.tables.Addressable) : ∃ offset token, b.decode = .error (.badToken offset token) := by
  obtain ⟨hcode, -⟩ := Draft.finish_eq_ok h
  obtain ⟨_, _, _, _, _, token, -, -, -, -, hdecode⟩ :=
    Tables.encodeAll_overflow hcode Tables.addressable_empty hover 0
  exact ⟨_, token, hdecode⟩

theorem Draft.addressable_of_decode {d : Draft κ} {b : Body κ} (h : d.finish = .ok b)
    {ps : List (Placed κ)} (hdecode : b.decode = .ok ps) : b.tables.Addressable := by
  by_contra hover
  obtain ⟨offset, token, herror⟩ := decode_of_not_addressable h hover
  cases hdecode.symm.trans herror

/-- If callees of a draft that are the same are equal, its instructions come back as they are. -/
theorem Draft.decode_eq {d : Draft κ} {b : Body κ} (h : d.finish = .ok b)
    (hfits : b.tables.Addressable)
    (hcallees : ∀ i ∈ d.code, ∀ j ∈ d.code, ∀ a c, i.operand = .method a →
      j.operand = .method c → (a == c) = true → a = c) :
    ∃ ps, b.decode = .ok ps ∧ ps.map Placed.instruction = d.code := by
  obtain ⟨hcode, -⟩ := Draft.finish_eq_ok h
  obtain ⟨chunks, ps, hchunks, hlaid, hsame, -⟩ := Tables.encodeAll_laid hcode hfits 0
  refine ⟨ps, by rw [Body.decode, hchunks, hlaid.decode], ?_⟩
  -- A callee that is read stands in the table, so it is one of the draft's own.
  have hequal : ∀ p ∈ ps, ∀ j ∈ d.code, p.instruction.Alike j → p.instruction = j := by
    rintro ⟨place, op, o⟩ hp ⟨op', o'⟩ hj ⟨hop, ho⟩
    obtain rfl : op = op' := hop
    cases ho with
    | refl => rfl
    | @method a c hac =>
      rcases Tables.encodeAll_methods hcode (hlaid.method_mem hp rfl) with hmem | ⟨i, hi, hoperand⟩
      · simp [Tables.empty] at hmem
      · rw [hcallees i hi _ hj a c hoperand rfl hac]
  rw [← List.forall₂_eq_eq_eq, List.forall₂_map_left_iff, List.forall₂_iff_zip]
  obtain ⟨hlen, hzip⟩ := List.forall₂_iff_zip.mp hsame
  refine ⟨hlen, ?_⟩
  intro p j hpj
  obtain ⟨hp, hj⟩ := List.of_mem_zip hpj
  exact hequal p hp j hj (hzip hpj)

/-- **Decoding undoes encoding, and never misreads.** Of a finished draft whose tables are not too
long, the decoder gives back exactly the instructions, each at the offset that the instructions
before it measure to; callees may be replaced by callees that are the same. If a table is too long,
the decoder refuses a token. -/
theorem decode_finish (d : Draft κ) (b : Body κ) (h : d.finish = .ok b) :
    (b.tables.Addressable → ∃ ps, b.decode = .ok ps ∧
      List.Forall₂ (fun p i => p.instruction.Alike i) ps d.code ∧
      ∀ k p, ps[k]? = some p → measure (d.code.take k) = .ok p.offset) ∧
    (¬ b.tables.Addressable → ∃ offset token, b.decode = .error (.badToken offset token)) := by
  refine ⟨?_, Draft.decode_of_not_addressable h⟩
  intro hfits
  obtain ⟨hcode, -⟩ := Draft.finish_eq_ok h
  obtain ⟨chunks, ps, hchunks, hlaid, hsame, hplaces⟩ := Tables.encodeAll_laid hcode hfits 0
  refine ⟨ps, ?_, hsame, ?_⟩
  · rw [Body.decode, hchunks]
    exact hlaid.decode
  · intro k p hp
    obtain ⟨n, hn, hoffset⟩ := hplaces k p hp
    rw [hn, hoffset, Nat.zero_add]

/-- A string that occurs twice shares its row, a word that is no number comes back, and the last
instruction is found behind 26 bytes. -/
theorem decode_finish_shared_rows :
    ∃ (b : Body Callee) (ps : List (Placed Callee)) (p : Placed Callee),
      Draft.finish ⟨[⟨.ldstr, .string "a"⟩, ⟨.ldcR4, .float32 ⟨0x7FC00001⟩⟩, ⟨.ldstr, .string "b"⟩,
        ⟨.ldstr, .string "a"⟩, ⟨.newobj, .method (.wrapper .str)⟩, .bare .pop,
        ⟨.initobj, .type (.nullable .i16)⟩], .empty⟩ = .ok b ∧
      b.tables.strings = ["a", "b"] ∧ b.decode = .ok ps ∧ ps.length = 7 ∧
      ps[6]? = some p ∧ p.offset = 26 := by
  obtain ⟨b, hb⟩ : ∃ b : Body Callee, Draft.finish ⟨[⟨.ldstr, .string "a"⟩,
      ⟨.ldcR4, .float32 ⟨0x7FC00001⟩⟩, ⟨.ldstr, .string "b"⟩, ⟨.ldstr, .string "a"⟩,
      ⟨.newobj, .method (.wrapper .str)⟩, .bare .pop, ⟨.initobj, .type (.nullable .i16)⟩],
      .empty⟩ = .ok b := ⟨_, rfl⟩
  have hfits : b.tables.Addressable := by
    cases hb
    exact ⟨by decide, by decide, by decide⟩
  obtain ⟨ps, hps, hsame, hplaces⟩ := (decode_finish _ b hb).1 hfits
  have hlen : ps.length = 7 := hsame.length_eq
  have hlast : ps[6]? = some ps[6] := List.getElem?_eq_getElem (by omega)
  refine ⟨b, ps, ps[6], hb, ?_, hps, hlen, hlast, ?_⟩
  · cases hb
    rfl
  · exact (Except.ok.inj (hplaces 6 _ hlast)).symm

end CallAdapter
