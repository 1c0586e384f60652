import CallAdapter.Code.Body

/-!
# Row maps

While a body is encoded, the rows of strings and types are remembered beside the tables, and callees
are looked for in their table. What is remembered is what a search would find: the memory agrees with
the table (`IndexedTable.Agrees`), and a new row keeps it so (`IndexedTable.Agrees.rowOf`).

So the encoder works as if all three tables were searched. `Tables.encodeAll` is the encoder that does
so, and by `Draft.finish_eq` it can be put in place of the one that remembers. The other modules are
about it.
-/

namespace CallAdapter

variable {κ : Type}

/-! ### One table -/

namespace IndexedTable

variable {α : Type} [BEq α]

/-- A row is remembered for an entry exactly if the entry stands there. -/
def Agrees (t : IndexedTable α) : Prop :=
  ∀ a row, t.rows.lookup a = some row ↔ t.entries[row]? = some a

theorem agrees_empty : (empty : IndexedTable α).Agrees := by
  intro a row
  simp [empty]

/-- Nothing is remembered for an entry exactly if it stands nowhere. -/
theorem Agrees.lookup_eq_none_iff {t : IndexedTable α} (h : t.Agrees) (a : α) :
    t.rows.lookup a = none ↔ a ∉ t.entries := by
  simp only [Option.eq_none_iff_forall_ne_some, ne_eq, h a, List.mem_iff_getElem?, not_exists]

variable [LawfulBEq α]

/-- The memory of a table that agrees is as good as a search. -/
theorem Agrees.lookup_eq {t : IndexedTable α} (h : t.Agrees) (a : α) :
    t.rows.lookup a = t.entries.findIdx? (· == a) := by
  cases hfind : t.entries.findIdx? (· == a) with
  | none =>
    rw [h.lookup_eq_none_iff]
    intro hmem
    have hnone := List.findIdx?_eq_none_iff.mp hfind a hmem
    simp at hnone
  | some row =>
    obtain ⟨hlt, hsame, -⟩ := List.findIdx?_eq_some_iff_getElem.mp hfind
    rw [h a row, List.getElem?_eq_getElem hlt, eq_of_beq hsame]

theorem Agrees.rowOf_eq {t : IndexedTable α} (h : t.Agrees) (a : α) :
    (t.rowOf a).1 = (CallAdapter.rowOf t.entries a).1 ∧
      (t.rowOf a).2.entries = (CallAdapter.rowOf t.entries a).2 := by
  unfold rowOf CallAdapter.rowOf
  rw [h.lookup_eq a]
  cases t.entries.findIdx? (· == a) with
  | none => exact ⟨rfl, rfl⟩
  | some row => exact ⟨rfl, rfl⟩

/-- Giving out a row keeps the memory in agreement with the table. -/
theorem Agrees.rowOf {t : IndexedTable α} (h : t.Agrees) (a : α) : (t.rowOf a).2.Agrees := by
  unfold IndexedTable.rowOf
  cases hlookup : t.rows.lookup a with
  | some row => exact h
  | none =>
    have hnew := (h.lookup_eq_none_iff a).mp hlookup
    intro b row
    show List.lookup b ((a, t.entries.length) :: t.rows) = some row ↔
      (t.entries ++ [a])[row]? = some b
    by_cases hb : b = a
    · -- The new entry stands in the new row and in no other.
      subst hb
      rw [List.lookup_cons_self, Option.some_inj]
      constructor
      · rintro rfl
        simp
      · intro hrow
        rcases Nat.lt_or_ge row t.entries.length with hlt | hge
        · rw [List.getElem?_append_left hlt] at hrow
          exact absurd (List.mem_of_getElem? hrow) hnew
        · obtain ⟨hlt, -⟩ := List.getElem?_eq_some_iff.mp hrow
          rw [List.length_append, List.length_singleton] at hlt
          omega
    · have hne : (b == a) = false := by simp [hb]
      rw [List.lookup_cons, hne]
      show List.lookup b t.rows = some row ↔ _
      rw [h b row]
      rcases Nat.lt_or_ge row t.entries.length with hlt | hge
      · rw [List.getElem?_append_left hlt]
      · -- Behind the old rows there is the new entry only.
        rw [List.getElem?_eq_none hge, List.getElem?_append_right hge]
        cases row - t.entries.length with
        | zero => simp [Ne.symm hb]
        | succ n => simp

/-- A row that is remembered stays what it is. -/
theorem lookup_rowOf {t : IndexedTable α} {a b : α} {row : Nat}
    (h : t.rows.lookup b = some row) : (t.rowOf a).2.rows.lookup b = some row := by
  unfold IndexedTable.rowOf
  cases hlookup : t.rows.lookup a with
  | some row' => exact h
  | none =>
    have hne : (b == a) = false := by
      rw [beq_eq_false_iff_ne]
      rintro rfl
      rw [hlookup] at h
      cases h
    show List.lookup b ((a, t.entries.length) :: t.rows) = some row
    rw [List.lookup_cons, hne]
    exact h

end IndexedTable

/-! ### The encoder without memory -/

namespace Tables

/-- Tables without rows. -/
def empty : Tables κ := ⟨[], [], []⟩

/-- The bytes of an operand, and the tables with a row for what it refers to. -/
def write [BEq κ] (t : Tables κ) : Operand κ → List UInt8 × Tables κ
  | .none => ([], t)
  | .byte b => ([b], t)
  | .int32 n => (LittleEndian.write 4 n.toUInt32.toNat, t)
  | .int64 n => (LittleEndian.write 8 n.toUInt64.toNat, t)
  | .float32 x => (LittleEndian.write 4 x.word, t)
  | .float64 x => (LittleEndian.write 8 x.word, t)
  | .string s =>
    let (row, strings) := rowOf t.strings s
    (tokenBytes Token.stringTable row, { t with strings })
  | .method callee =>
    let (row, methods) := rowOf t.methods callee
    (tokenBytes Token.methodTable row, { t with methods })
  | .type type =>
    let (row, types) := rowOf t.types type
    (tokenBytes Token.typeTable row, { t with types })

def encode [BEq κ] (t : Tables κ) (i : Instruction κ) :
    Except BuildError (List UInt8 × Tables κ) :=
  i.check.map fun () =>
    let (operand, t) := t.write i.operand
    (i.op.encoding ++ operand, t)

def encodeAll [BEq κ] (t : Tables κ) :
    List (Instruction κ) → Except BuildError (List UInt8 × Tables κ)
  | [] => .ok ([], t)
  | i :: is => do
    let (bytes, t) ← t.encode i
    let (rest, t) ← t.encodeAll is
    return (bytes ++ rest, t)

end Tables

/-! ### Both encoders do the same -/

namespace TableBuilder

/-- What is remembered of strings and types agrees with the tables. -/
structure Agrees (t : TableBuilder κ) : Prop where
  strings : t.strings.Agrees
  types : t.types.Agrees

theorem agrees_empty : (empty : TableBuilder κ).Agrees :=
  ⟨IndexedTable.agrees_empty, IndexedTable.agrees_empty⟩

variable [BEq κ]

/-- An operand is written as it is without memory, and the memory stays in agreement. -/
theorem Agrees.write_eq {t : TableBuilder κ} (h : t.Agrees) (o : Operand κ) :
    (t.write o).1 = (t.tables.write o).1 ∧ (t.write o).2.tables = (t.tables.write o).2 ∧
      (t.write o).2.Agrees := by
  cases o with
  | string s =>
    obtain ⟨hrow, hentries⟩ := h.strings.rowOf_eq s
    refine ⟨?_, ?_, h.strings.rowOf s, h.types⟩
    · exact congrArg (Tables.tokenBytes Token.stringTable) hrow
    · exact congrArg (fun strings => (⟨strings, t.methods, t.types.entries⟩ : Tables κ)) hentries
  | method callee => exact ⟨rfl, rfl, h.strings, h.types⟩
  | type type =>
    obtain ⟨hrow, hentries⟩ := h.types.rowOf_eq type
    refine ⟨?_, ?_, h.strings, h.types.rowOf type⟩
    · exact congrArg (Tables.tokenBytes Token.typeTable) hrow
    · exact congrArg (fun types => (⟨t.strings.entries, t.methods, types⟩ : Tables κ)) hentries
  | _ => exact ⟨rfl, rfl, h⟩

theorem encodeAll_cons_of_check {t : TableBuilder κ} {i : Instruction κ} (h : i.check = .ok ())
    (is : List (Instruction κ)) : t.encodeAll (i :: is) =
      ((t.write i.operand).2.encodeAll is).map fun out =>
        (i.op.encoding ++ (t.write i.operand).1 ++ out.1, out.2) := by
  rw [encodeAll, encode, h]
  show ((t.write i.operand).2.encodeAll is >>= _) = _
  cases (t.write i.operand).2.encodeAll is <;> rfl

/-- If code is written, so is the operand of its first instruction, and then the rest. -/
theorem encodeAll_cons {t u : TableBuilder κ} {i : Instruction κ} {is : List (Instruction κ)}
    {code : List UInt8} (h : t.encodeAll (i :: is) = .ok (code, u)) : i.check = .ok () ∧
      ∃ rest, (t.write i.operand).2.encodeAll is = .ok (rest, u) ∧
        code = i.op.encoding ++ (t.write i.operand).1 ++ rest := by
  cases hcheck : i.check with
  | error e =>
    rw [encodeAll, encode, hcheck] at h
    cases h
  | ok =>
    rw [encodeAll_cons_of_check hcheck] at h
    cases hrest : (t.write i.operand).2.encodeAll is with
    | error e =>
      rw [hrest] at h
      cases h
    | ok out =>
      rw [hrest] at h
      cases h
      exact ⟨rfl, out.1, rfl, rfl⟩

/-- The encoder without memory comes to the same tables and bytes, and it is refused the same. -/
theorem Agrees.encodeAll_map {t : TableBuilder κ} (h : t.Agrees) (is : List (Instruction κ)) :
    t.tables.encodeAll is = (t.encodeAll is).map fun out => (out.1, out.2.tables) := by
  induction is generalizing t with
  | nil => rfl
  | cons i is ih =>
    obtain ⟨hbytes, htables, hagrees⟩ := h.write_eq i.operand
    cases hcheck : i.check with
    | error e =>
      -- The check does not look at the tables, so that both encoders stop at the same instruction.
      rw [Tables.encodeAll, Tables.encode, encodeAll, encode, hcheck]
      rfl
    | ok =>
      have hhead : t.tables.encode i = .ok (i.op.encoding ++ (t.write i.operand).1,
          (t.write i.operand).2.tables) := by
        rw [Tables.encode, hcheck, hbytes, htables]
        rfl
      rw [Tables.encodeAll, hhead, encodeAll_cons_of_check hcheck]
      show ((t.write i.operand).2.tables.encodeAll is >>= _) = _
      rw [ih hagrees]
      cases (t.write i.operand).2.encodeAll is <;> rfl

end TableBuilder

/-- A draft is finished as it is without memory. -/
theorem Draft.finish_eq [BEq κ] (d : Draft κ) : d.finish = (measure d.code >>= fun _ =>
    Tables.empty.encodeAll d.code >>= fun out => .ok ⟨out.1, d.locals.types, out.2⟩) := by
  have hmap : Tables.empty.encodeAll d.code =
      (TableBuilder.empty.encodeAll d.code).map fun out => (out.1, out.2.tables) :=
    TableBuilder.agrees_empty.encodeAll_map d.code
  rw [Draft.finish, hmap]
  cases measure d.code with
  | error e => rfl
  | ok n => cases TableBuilder.empty.encodeAll d.code <;> rfl

end CallAdapter
