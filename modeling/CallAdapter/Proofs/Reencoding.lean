import CallAdapter.Proofs.FirstUses

/-!
# Encoding undoes decoding

Decoded instructions are encoded once more. The tables are made anew, so tokens change: rows that
nothing refers to are gone, equal rows are merged, and the others are in the order of first use.

* The new tables are never too long (`Laid.addressable_firstUses`): what they list was named by
  tokens before, and there are only so many tokens.
* An instruction takes as many bytes whatever its token says, so every instruction stays where it
  was (`Laid.places_eq`).
* In tables without duplicates only one token stands for an entry, so code whose tables already list
  the first uses is written with the same bytes (`Laid.chunks_eq`).

The main result is `finish_decode`.
-/

namespace CallAdapter

variable {κ : Type}

/-! ### Tokens -/

namespace Token

theorem mod_of_row? {token : UInt32} {row : Nat} (h : row? token = some row) :
    token.toNat % rowLimit = row + 1 := by
  unfold row? at h
  split at h
  · cases h
  · next hrow =>
    cases h
    exact hrow

theorem row?_lt {token : UInt32} {row : Nat} (h : row? token = some row) : row + 1 < rowLimit := by
  rw [← mod_of_row? h]
  exact Nat.mod_lt _ (by decide)

/-- A token is its table and its row. -/
theorem eq_make {token : UInt32} {row : Nat} (h : row? token = some row) :
    token = make (table token) row := by
  have htable : (table token).toNat = token.toNat / rowLimit := by
    have hlt : token.toNat < 2 ^ 32 := token.toNat_lt
    rw [table, UInt8.toNat_ofNat_of_lt']
    simp only [rowLimit, UInt8.size]
    omega
  apply UInt32.toNat_inj.mp
  rw [toNat_make, htable, Nat.mod_eq_of_lt (row?_lt h), ← mod_of_row? h, Nat.mul_comm]
  exact (Nat.div_add_mod _ _).symm

variable {α : Type} {tableByte : UInt8} {entries : List α}

theorem mem_take_of_find? {token : UInt32} {a : α} (h : find? tableByte entries token = some a) :
    a ∈ entries.take (rowLimit - 1) := by
  obtain ⟨-, row, hrow, ha⟩ := (find?_eq_some_iff _ _ _ _).mp h
  have hlt := row?_lt hrow
  apply List.mem_of_getElem? (i := row)
  rw [List.getElem?_take_of_lt (by omega), ha]

variable [BEq α] [EquivBEq α]

/-- Without duplicates, tokens of the same entry are the same token. -/
theorem eq_of_find? (hdistinct : Distinct entries) {token token' : UInt32} {a b : α}
    (ha : find? tableByte entries token = some a) (hb : find? tableByte entries token' = some b)
    (hsame : (a == b) = true) : token = token' := by
  obtain ⟨htable, row, hrow, ha⟩ := (find?_eq_some_iff _ _ _ _).mp ha
  obtain ⟨htable', row', hrow', hb⟩ := (find?_eq_some_iff _ _ _ _).mp hb
  rw [eq_make hrow, eq_make hrow', htable, htable', hdistinct.row_eq ha hb hsame]

/-- Entries that tokens can name are not too many for tokens, unless some are the same. -/
theorem length_lt_rowLimit (tableByte : UInt8) (entries : List α) {rows : List α}
    (hdistinct : Distinct rows)
    (h : ∀ a ∈ rows, ∃ token, find? tableByte entries token = some a) :
    rows.length < rowLimit := by
  have hsub : rows ⊆ entries.take (rowLimit - 1) := by
    intro a ha
    obtain ⟨token, htoken⟩ := h a ha
    exact mem_take_of_find? htoken
  -- Distinct entries within a list are no more than the list is long.
  have hle : rows.length ≤ (entries.take (rowLimit - 1)).length :=
    (hdistinct.nodup.subperm hsub).length_le
  have hpos : 0 < rowLimit := by decide
  rw [List.length_take] at hle
  omega

end Token

/-! ### Encoding succeeds -/

section Encoding

variable [BEq κ]

namespace Tables

theorem encodeAll_of_kinds (t : Tables κ) {is : List (Instruction κ)}
    (h : ∀ i ∈ is, i.operand.kind = i.op.operandKind) :
    ∃ code u, t.encodeAll is = .ok (code, u) := by
  induction is generalizing t with
  | nil => exact ⟨[], t, rfl⟩
  | cons i is ih =>
    -- The tables that the rest begins with are those that this instruction leaves.
    have hcheck : i.check = .ok () := if_pos (h i (by simp))
    obtain ⟨rest, u, hrest⟩ := ih (t.write i.operand).2 (fun j hj => h j (by simp [hj]))
    refine ⟨i.op.encoding ++ (t.write i.operand).1 ++ rest, u, ?_⟩
    simp [encodeAll, encode, hcheck, hrest, bind, Except.bind, Except.map, pure, Except.pure]

theorem encodeAll_measure {t u : Tables κ} {is : List (Instruction κ)} {code : List UInt8}
    (h : t.encodeAll is = .ok (code, u)) : measure is = .ok code.length := by
  induction is generalizing t code with
  | nil =>
    cases h
    rfl
  | cons i is ih =>
    obtain ⟨bytes, rest, v, hhead, htail, rfl⟩ := encodeAll_cons h
    rw [measure, encode_length hhead, ih htail, List.length_append]
    rfl

end Tables

/-- A draft can be finished when every operand is of the kind that its opcode asks for. -/
theorem Draft.exists_finish (d : Draft κ)
    (h : ∀ i ∈ d.code, i.operand.kind = i.op.operandKind) : ∃ b, d.finish = .ok b := by
  obtain ⟨code, u, hcode⟩ := Tables.empty.encodeAll_of_kinds h
  refine ⟨⟨code, d.locals.types, u⟩, ?_⟩
  simp [Draft.finish_eq, Tables.encodeAll_measure hcode, hcode, bind, Except.bind]

end Encoding

/-! ### Laid code -/

/-- What laid code refers to by operands of one kind has room in a table of its own, if such operands
are tokens. -/
theorem Laid.length_firstUses_lt {t : Tables κ} {offset stop : Nat} {chunks : List (List UInt8)}
    {ps : List (Placed κ)} (h : Laid t offset chunks ps stop) {β : Type} [BEq β] [EquivBEq β]
    (tableByte : UInt8) (entries : List β) {use? : Operand κ → Option β}
    (hfind : ∀ o bytes a, o.Spelled t bytes → use? o = some a →
      ∃ token, Token.find? tableByte entries token = some a) :
    ((ps.map Placed.instruction).filterMap fun i => use? i.operand).eraseDups.length
      < Token.rowLimit := by
  -- Distinct entries need distinct tokens, of which there are not more than rows.
  apply Token.length_lt_rowLimit tableByte entries (distinct_eraseDups _)
  intro a ha
  obtain ⟨i, hi, huse⟩ := List.mem_filterMap.mp (mem_of_mem_eraseDups ha)
  obtain ⟨p, hp, rfl⟩ := List.mem_map.mp hi
  obtain ⟨_, -, bytes, -, hoperand⟩ := h.spelled_of_mem hp
  exact hfind _ bytes a hoperand huse

section Laid

variable [BEq κ]

/-- Instructions at the same offset that are alike. -/
def Placed.Alike (p q : Placed κ) : Prop :=
  p.offset = q.offset ∧ p.instruction.Alike q.instruction

theorem Placed.eq_of_alike {ps qs : List (Placed κ)} (halike : List.Forall₂ Placed.Alike ps qs)
    (h : ps.map Placed.instruction = qs.map Placed.instruction) : ps = qs := by
  induction halike with
  | nil => rfl
  | @cons p q ps qs hhead _ ih =>
    obtain ⟨hinstruction, hrest⟩ := List.cons.inj h
    have hplaced : p = q := by
      cases p
      cases q
      rw [Placed.mk.injEq]
      exact ⟨hhead.1, hinstruction⟩
    rw [hplaced, ih hrest]

/-- Alike instructions take the same number of bytes, against whatever tables. -/
theorem Instruction.Spelled.length_eq {t u : Tables κ} {i j : Instruction κ}
    {bytes bytes' : List UInt8} (hi : i.Spelled t bytes) (hj : j.Spelled u bytes')
    (halike : i.Alike j) : bytes.length = bytes'.length := by
  obtain ⟨-, operand, rfl, hoperand⟩ := hi
  obtain ⟨-, operand', rfl, hoperand'⟩ := hj
  have hlength := hoperand.length
  rw [halike.2.kind_eq, hoperand'.length] at hlength
  rw [List.length_append, List.length_append, halike.1, Option.some.inj hlength]

/-- Alike instructions that are laid from the same offset are at the same offsets throughout. -/
theorem Laid.places_eq {t u : Tables κ} {offset stop stop' : Nat} {chunks chunks' : List (List UInt8)}
    {ps ps' : List (Placed κ)} (h : Laid t offset chunks ps stop)
    (h' : Laid u offset chunks' ps' stop')
    (halike : List.Forall₂ (fun p q => p.instruction.Alike q.instruction) ps ps') :
    stop = stop' ∧ List.Forall₂ Placed.Alike ps ps' := by
  induction h generalizing chunks' ps' with
  | nil =>
    cases halike
    cases h'
    exact ⟨rfl, .nil⟩
  | cons hspelled _ ih =>
    cases halike with
    | cons hhead htail =>
      cases h' with
      | cons hspelled' hrest' =>
        -- Both go on behind the same number of bytes.
        rw [← hspelled.length_eq hspelled' hhead] at hrest'
        obtain ⟨hstop, hrest⟩ := ih hrest' htail
        exact ⟨hstop, .cons ⟨rfl, hhead⟩ hrest⟩

variable [EquivBEq κ]

theorem Operand.Spelled.bytes_eq {t : Tables κ} (hdistinct : t.Distinct) {o o' : Operand κ}
    {bytes bytes' : List UInt8} (h : o.Spelled t bytes) (h' : o'.Spelled t bytes')
    (halike : o.Alike o') : bytes = bytes' := by
  cases halike with
  | method hsame =>
    cases h with
    | method hfind =>
      cases h' with
      | method hfind' => rw [Token.eq_of_find? hdistinct.methods hfind hfind' hsame]
  | refl =>
    -- Numbers have one spelling. A token is found from its entry, which stands in one row only.
    cases h <;> cases h'
    case string.string hfind _ hfind' =>
      rw [Token.eq_of_find? hdistinct.strings hfind hfind' (BEq.refl _)]
    case method.method hfind _ hfind' =>
      rw [Token.eq_of_find? hdistinct.methods hfind hfind' (BEq.refl _)]
    case type.type hfind _ hfind' =>
      rw [Token.eq_of_find? hdistinct.types hfind hfind' (BEq.refl _)]
    all_goals rfl

/-- In tables without duplicates, alike instructions are written with the same bytes. -/
theorem Laid.chunks_eq {t : Tables κ} (hdistinct : t.Distinct) {offset stop stop' : Nat}
    {chunks chunks' : List (List UInt8)} {ps ps' : List (Placed κ)}
    (h : Laid t offset chunks ps stop) (h' : Laid t offset chunks' ps' stop')
    (halike : List.Forall₂ Placed.Alike ps ps') : chunks = chunks' := by
  induction h generalizing chunks' ps' with
  | nil =>
    cases halike
    cases h'
    rfl
  | cons hspelled _ ih =>
    cases halike with
    | cons hhead htail =>
      cases h' with
      | cons hspelled' hrest' =>
        rw [← hspelled.length_eq hspelled' hhead.2] at hrest'
        obtain ⟨-, operand, rfl, hoperand⟩ := hspelled
        obtain ⟨-, operand', rfl, hoperand'⟩ := hspelled'
        rw [hhead.2.1, hoperand.bytes_eq hdistinct hoperand' hhead.2.2, ih hrest' htail]

/-- What laid code refers to has room in tables of its own. -/
theorem Laid.addressable_firstUses {t : Tables κ} {offset stop : Nat}
    {chunks : List (List UInt8)} {ps : List (Placed κ)} (h : Laid t offset chunks ps stop) :
    (Tables.firstUses (ps.map Placed.instruction)).Addressable := by
  refine ⟨h.length_firstUses_lt Token.stringTable t.strings ?_,
    h.length_firstUses_lt Token.methodTable t.methods ?_,
    h.length_firstUses_lt Token.typeTable t.types ?_⟩
  · intro o bytes s hoperand hs
    cases hoperand with
    | string hfind =>
      cases hs
      exact ⟨_, hfind⟩
    | _ => cases hs
  · intro o bytes callee hoperand hcallee
    cases hoperand with
    | method hfind =>
      cases hcallee
      exact ⟨_, hfind⟩
    | _ => cases hcallee
  · intro o bytes type hoperand htype
    cases hoperand with
    | type hfind =>
      cases htype
      exact ⟨_, hfind⟩
    | _ => cases htype

end Laid

/-! ### Bodies -/

/-- Being the same is an equivalence of callees. -/
instance Callee.instEquivBEq : EquivBEq Callee where
  rfl := by
    intro c
    cases c <;> simp [(· == ·), Callee.same]
  symm := by
    intro c d h
    cases c <;> cases d <;> simp_all [(· == ·), Callee.same]
  trans := by
    intro c d e h h'
    cases c <;> cases d <;> cases e <;> simp_all [(· == ·), Callee.same]

/-- **Encoding undoes decoding.** The instructions of a body can always be encoded again, whatever
locals are declared. The new code is as long as the old one, and decoding it lists alike
instructions at the same offsets: the very same ones, unless the old tables have callees that are
the same without being equal. If the old tables list the first uses of the instructions, neither
the code nor the tables change. -/
theorem finish_decode (b : Body Callee) (ps : List (Placed Callee)) (h : b.decode = .ok ps)
    (locals : Locals) :
    ∃ b' ps', Draft.finish ⟨ps.map Placed.instruction, locals⟩ = .ok b' ∧
      b'.code.length = b.code.length ∧ b'.decode = .ok ps' ∧ List.Forall₂ Placed.Alike ps' ps ∧
      ((∀ c ∈ b.tables.methods, ∀ d ∈ b.tables.methods, (c == d) = true → c = d) → ps' = ps) ∧
      (b.tables = Tables.firstUses (ps.map Placed.instruction) →
        b'.code = b.code ∧ b'.tables = b.tables) := by
  obtain ⟨chunks, hchunks, hlaid⟩ := exists_laid_of_decode h
  have hkinds : ∀ i ∈ ps.map Placed.instruction, i.operand.kind = i.op.operandKind := by
    intro i hi
    obtain ⟨p, hp, rfl⟩ := List.mem_map.mp hi
    obtain ⟨_, hkind, -⟩ := hlaid.spelled_of_mem hp
    exact hkind
  -- The new tables hold the first uses, so they have room for all rows and the code can be read.
  obtain ⟨b', hb'⟩ := Draft.exists_finish ⟨ps.map Placed.instruction, locals⟩ hkinds
  obtain ⟨hcode, -⟩ := Draft.finish_eq_ok hb'
  have htables : b'.tables = Tables.firstUses (ps.map Placed.instruction) :=
    Tables.encodeAll_firstUses hcode
  have hfits : b'.tables.Addressable := htables ▸ hlaid.addressable_firstUses
  obtain ⟨chunks', ps', hchunks', hlaid', hsame, -⟩ := Tables.encodeAll_laid hcode hfits 0
  obtain ⟨hstop, halike⟩ := hlaid'.places_eq hlaid (List.forall₂_map_right_iff.mp hsame)
  have hdecode : b'.decode = .ok ps' := by rw [Body.decode, hchunks', hlaid'.decode]
  refine ⟨b', ps', hb', by omega, hdecode, halike, ?_, ?_⟩
  · -- Each callee that is read stands in the old tables, where the same callee is the only one.
    intro hcallees
    have hmem : ∀ i ∈ ps.map Placed.instruction, ∀ c, i.operand = .method c →
        c ∈ b.tables.methods := by
      intro i hi c hc
      obtain ⟨p, hp, rfl⟩ := List.mem_map.mp hi
      exact hlaid.method_mem hp hc
    obtain ⟨qs, hqs, hmap⟩ := Draft.decode_eq hb' hfits (fun i hi j hj c d hc hd =>
      hcallees c (hmem i hi c hc) d (hmem j hj d hd))
    rw [hdecode] at hqs
    cases hqs
    exact Placed.eq_of_alike halike hmap
  · -- The two tables are equal and without duplicates, so both codes are spelled in the same way.
    intro hcanonical
    rw [← hcanonical] at htables
    rw [htables] at hlaid'
    have hdistinct : b.tables.Distinct := hcanonical ▸ Tables.distinct_firstUses _
    refine ⟨?_, htables⟩
    rw [hchunks', hchunks, hlaid'.chunks_eq hdistinct hlaid halike]

/-- Rows that are out of order, equal or unused are put right. Done once more, nothing changes. -/
theorem finish_decode_untidy_rows :
    ∃ (b b' b'' : Body Callee) (ps ps' : List (Placed Callee)),
      b.tables.strings = ["unused", "b", "a", "a"] ∧ b.decode = .ok ps ∧
      Draft.finish ⟨ps.map Placed.instruction, .empty⟩ = .ok b' ∧
      b'.tables.strings = ["a", "b"] ∧ b'.code.length = b.code.length ∧ b'.code ≠ b.code ∧
      b'.decode = .ok ps' ∧ List.Forall₂ Placed.Alike ps' ps ∧
      Draft.finish ⟨ps'.map Placed.instruction, .empty⟩ = .ok b'' ∧
      b''.code = b'.code ∧ b''.tables = b'.tables := by
  obtain ⟨b, hb⟩ : ∃ b : Body Callee, b = ⟨[0x72, 3, 0, 0, 0x70, 0x72, 2, 0, 0, 0x70, 0x26, 0x72,
    4, 0, 0, 0x70, 0x73, 1, 0, 0, 0x0A], [], ⟨["unused", "b", "a", "a"], [.wrapper .str], [.i16]⟩⟩ :=
    ⟨_, rfl⟩
  obtain ⟨ps, hps⟩ : ∃ ps : List (Placed Callee), ps = [⟨0, .ldstr, .string "a"⟩,
    ⟨5, .ldstr, .string "b"⟩, ⟨10, .bare .pop⟩, ⟨11, .ldstr, .string "a"⟩,
    ⟨16, .newobj, .method (.wrapper .str)⟩] := ⟨_, rfl⟩
  have hdecode : b.decode = .ok ps := by
    subst hb hps
    cbv
  obtain ⟨b', ps', hb', hlength, hdecode', halike, hequal, -⟩ := finish_decode b ps hdecode .empty
  obtain rfl : ps' = ps := by
    apply hequal
    subst hb
    simp
  have hcanonical : b'.tables = Tables.firstUses (ps'.map Placed.instruction) := by
    subst hps
    cases hb'
    rfl
  obtain ⟨b'', -, hb'', -, -, -, -, hsame⟩ := finish_decode b' ps' hdecode' .empty
  refine ⟨b, b', b'', ps', ps', ?_, hdecode, hb', ?_, hlength, ?_, hdecode', halike, hb'',
    hsame hcanonical⟩
  · rw [hb]
  · subst hps
    cases hb'
    rfl
  · subst hb hps
    cases hb'
    decide

end CallAdapter
