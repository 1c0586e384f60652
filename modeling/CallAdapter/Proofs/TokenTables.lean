import CallAdapter.Proofs.FirstUses
import CallAdapter.Proofs.Outcome
import CallAdapter.Proofs.Reencoding

/-!
# What the tables of a body list

The main theorem, `finish_listsUses`, says what the three tables of a finished body are: they list what
the instructions refer to, each once, in the order of first use (`ListsUses`). It also says that this is
so at every moment of the encoding, with the memory of rows in agreement with the tables, and that a row
once given out is never given to something else.

Strings and types are found through a memory kept beside the table, callees by searching the table. The
argument is the same for all three: asking for a row keeps `ListsUses` (`ListsUses.rowOf`), and memory
and search give the same row (`TableBuilder.Agrees.encodeAll_map`).
-/

namespace CallAdapter

variable {κ : Type}

/-! ### Lists of first uses -/

section Uses

variable {α : Type} [BEq α]

/-- The entries are what is used, each once and in the order of first use. -/
structure ListsUses (entries uses : List α) : Prop where
  /-- No two entries are the same. -/
  distinct : Distinct entries
  /-- Nothing is missing. -/
  complete : ∀ a ∈ uses, ∃ b ∈ entries, (b == a) = true
  /-- Nothing is added: an entry is the first use of its kind. -/
  first : ∀ a ∈ entries, uses.find? (· == a) = some a
  /-- The first uses come in the order of the entries. -/
  ordered : (entries.map fun a => uses.findIdx (· == a)).Pairwise (· < ·)

namespace ListsUses

variable {entries uses : List α}

theorem nil : ListsUses ([] : List α) [] where
  distinct := .nil
  complete := by simp
  first := by simp
  ordered := by simp

/-- An entry is used before the uses are at an end. -/
theorem findIdx_lt (h : ListsUses entries uses) {a : α} (ha : a ∈ entries) :
    uses.findIdx (· == a) < uses.length := by
  apply List.findIdx_lt_length_of_exists
  have hfirst := h.first a ha
  have hself := List.find?_some hfirst
  exact ⟨a, List.mem_of_find?_eq_some hfirst, hself⟩

/-- More uses leave the first uses where they are. -/
theorem findIdx_append (h : ListsUses entries uses) {a : α} (ha : a ∈ entries) (more : List α) :
    (uses ++ more).findIdx (· == a) = uses.findIdx (· == a) := by
  rw [List.findIdx_append, if_pos (h.findIdx_lt ha)]

theorem first_append (h : ListsUses entries uses) {a : α} (ha : a ∈ entries) (more : List α) :
    (uses ++ more).find? (· == a) = some a := by
  rw [List.find?_append, h.first a ha]
  rfl

theorem ordered_append (h : ListsUses entries uses) (more : List α) :
    (entries.map fun a => (uses ++ more).findIdx (· == a)).Pairwise (· < ·) := by
  have hsame : entries.map (fun a => (uses ++ more).findIdx (· == a))
      = entries.map fun a => uses.findIdx (· == a) :=
    List.map_congr_left fun a ha => h.findIdx_append ha more
  rw [hsame]
  exact h.ordered

variable [EquivBEq α]

/-- If no entry is the same, neither is any use so far. -/
theorem not_used (h : ListsUses entries uses) {a : α} (hnew : ∀ b ∈ entries, (b == a) = false) :
    ∀ b ∈ uses, (b == a) = false := by
  intro b hb
  obtain ⟨c, hc, hsame⟩ := h.complete b hb
  cases hba : b == a with
  | false => rfl
  | true =>
    have hca : (c == a) = true := BEq.trans hsame hba
    rw [hnew c hc] at hca
    cases hca

/-- One more use keeps the table a list of first uses. -/
theorem rowOf (h : ListsUses entries uses) (a : α) :
    ListsUses (rowOf entries a).2 (uses ++ [a]) := by
  have hdistinct := h.distinct.rowOf a
  rcases rowOf_cases entries a with ⟨row, b, hb, hsame, heq⟩ | ⟨hnew, heq⟩
  · -- The use is known, so the table stays as it is.
    rw [heq] at hdistinct ⊢
    refine ⟨hdistinct, ?_, fun c hc => h.first_append hc [a], h.ordered_append [a]⟩
    intro c hc
    rcases List.mem_append.mp hc with hc | hc
    · exact h.complete c hc
    · obtain rfl := List.mem_singleton.mp hc
      exact ⟨b, List.mem_of_getElem? hb, hsame⟩
  · -- The use is new: it gets the last row, and no use before it is the same.
    rw [heq] at hdistinct ⊢
    have hunused := h.not_used hnew
    have hindex : (uses ++ [a]).findIdx (· == a) = uses.length := by
      have hend : uses.findIdx (· == a) = uses.length := List.findIdx_eq_length.mpr hunused
      rw [List.findIdx_append, if_neg (by omega)]
      simp
    refine ⟨hdistinct, ?_, ?_, ?_⟩
    · intro c hc
      rcases List.mem_append.mp hc with hc | hc
      · obtain ⟨b, hb, hsame⟩ := h.complete c hc
        exact ⟨b, List.mem_append_left _ hb, hsame⟩
      · obtain rfl := List.mem_singleton.mp hc
        exact ⟨c, by simp, BEq.rfl⟩
    · intro c hc
      rcases List.mem_append.mp hc with hc | hc
      · exact h.first_append hc [a]
      · obtain rfl := List.mem_singleton.mp hc
        have hnone : uses.find? (· == c) = none := by
          rw [List.find?_eq_none]
          intro b hb
          simp [hunused b hb]
        simp [List.find?_append, hnone]
    · -- The new entry is used first where the earlier uses end.
      rw [List.map_append, List.pairwise_append]
      refine ⟨h.ordered_append [a], by simp, ?_⟩
      intro m hm n hn
      obtain ⟨c, hc, rfl⟩ := List.mem_map.mp hm
      obtain rfl : n = uses.length := by simpa [hindex] using hn
      rw [h.findIdx_append hc]
      exact h.findIdx_lt hc

/-- So do more uses, one after the other. -/
theorem useAll (h : ListsUses entries uses) (more : List α) :
    ListsUses (useAll entries more) (uses ++ more) := by
  induction more generalizing entries uses with
  | nil =>
    rw [List.append_nil]
    exact h
  | cons a more ih =>
    rw [useAll_cons, List.append_cons]
    exact ih (h.rowOf a)

end ListsUses

end Uses

/-! ### Tables -/

/-- The tables list what the instructions refer to. -/
structure Tables.ListsUses [BEq κ] (t : Tables κ) (is : List (Instruction κ)) : Prop where
  strings : CallAdapter.ListsUses t.strings (usedStrings is)
  methods : CallAdapter.ListsUses t.methods (usedMethods is)
  types : CallAdapter.ListsUses t.types (usedTypes is)

theorem Tables.encodeAll_listsUses [BEq κ] [EquivBEq κ] {u : Tables κ} {is : List (Instruction κ)}
    {code : List UInt8} (h : empty.encodeAll is = .ok (code, u)) : u.ListsUses is := by
  rw [encodeAll_useAll h]
  exact ⟨CallAdapter.ListsUses.nil.useAll _, CallAdapter.ListsUses.nil.useAll _,
    CallAdapter.ListsUses.nil.useAll _⟩

/-! ### Rows stay -/

namespace TableBuilder

/-- What has a row in the first has the same row in the second, in the tables and in the memory. -/
structure Keeps (t u : TableBuilder κ) : Prop where
  tables : t.tables.Extends u.tables
  strings : ∀ s row, t.strings.rows.lookup s = some row → u.strings.rows.lookup s = some row
  types : ∀ type row, t.types.rows.lookup type = some row → u.types.rows.lookup type = some row

theorem Keeps.refl (t : TableBuilder κ) : t.Keeps t :=
  ⟨.refl _, fun _ _ h => h, fun _ _ h => h⟩

theorem Keeps.trans {t u v : TableBuilder κ} (h : t.Keeps u) (h' : u.Keeps v) : t.Keeps v :=
  ⟨h.tables.trans h'.tables, fun s row hs => h'.strings s row (h.strings s row hs),
    fun type row ht => h'.types type row (h.types type row ht)⟩

variable [BEq κ]

theorem Agrees.keeps_write {t : TableBuilder κ} (h : t.Agrees) (o : Operand κ) :
    t.Keeps (t.write o).2 := by
  have htables : t.tables.Extends (t.write o).2.tables := by
    rw [(h.write_eq o).2.1]
    exact t.tables.write_extends o
  cases o with
  | string s => exact ⟨htables, fun _ _ => IndexedTable.lookup_rowOf, fun _ _ hlookup => hlookup⟩
  | type type => exact ⟨htables, fun _ _ hlookup => hlookup, fun _ _ => IndexedTable.lookup_rowOf⟩
  | _ => exact ⟨htables, fun _ _ hlookup => hlookup, fun _ _ hlookup => hlookup⟩

/-- The encoder keeps the rows that there are. -/
theorem Agrees.keeps_encodeAll {t u : TableBuilder κ} (h : t.Agrees) {is : List (Instruction κ)}
    {code : List UInt8} (hcode : t.encodeAll is = .ok (code, u)) : t.Keeps u := by
  induction is generalizing t code with
  | nil =>
    cases hcode
    exact .refl _
  | cons i is ih =>
    obtain ⟨-, rest, hrest, -⟩ := encodeAll_cons hcode
    exact (h.keeps_write i.operand).trans (ih (h.write_eq i.operand).2.2 hrest)

/-- After the first of the instructions the memory agrees with the tables, and all rows given out so far
are kept to the end. -/
theorem Agrees.encodeAll_front {t u : TableBuilder κ} (h : t.Agrees)
    {front back : List (Instruction κ)} {code : List UInt8}
    (hcode : t.encodeAll (front ++ back) = .ok (code, u)) :
    ∃ bytes v, t.encodeAll front = .ok (bytes, v) ∧ v.Agrees ∧ v.Keeps u := by
  induction front generalizing t code with
  | nil => exact ⟨[], t, rfl, h, h.keeps_encodeAll hcode⟩
  | cons i front ih =>
    obtain ⟨hcheck, rest, hrest, -⟩ := encodeAll_cons hcode
    obtain ⟨bytes, v, hfront, hagrees, hkeeps⟩ := ih (h.write_eq i.operand).2.2 hrest
    refine ⟨i.op.encoding ++ (t.write i.operand).1 ++ bytes, v, ?_, hagrees, hkeeps⟩
    rw [encodeAll_cons_of_check hcheck, hfront]
    rfl

end TableBuilder

/-! ### The main theorem -/

/-- **Tables list first uses.** The tables of a finished body list the strings, callees and types that
the instructions refer to: each once, nothing else, in the order of first use. This is so after any part
of the code has been encoded, with the rows of strings and types remembered as they are, and a row that
has been given out by then is still there in the end. -/
theorem finish_listsUses [BEq κ] [EquivBEq κ] (d : Draft κ) (b : Body κ) (h : d.finish = .ok b) :
    b.tables = .firstUses d.code ∧ b.tables.ListsUses d.code ∧
    ∃ u : TableBuilder κ, TableBuilder.empty.encodeAll d.code = .ok (b.code, u) ∧
      u.tables = b.tables ∧
      ∀ front back, d.code = front ++ back → ∃ bytes t,
        TableBuilder.empty.encodeAll front = .ok (bytes, t) ∧ t.tables.ListsUses front ∧
          t.Agrees ∧ t.Keeps u := by
  obtain ⟨hcode, -⟩ := Draft.finish_eq_ok h
  have hagrees : (TableBuilder.empty : TableBuilder κ).Agrees := TableBuilder.agrees_empty
  refine ⟨Tables.encodeAll_firstUses hcode, Tables.encodeAll_listsUses hcode, ?_⟩
  -- The tables are those of the encoder that remembers rows.
  obtain ⟨⟨code, u⟩, hbuilt, hout⟩ :=
    exists_of_map_eq_ok ((hagrees.encodeAll_map d.code).symm.trans hcode)
  obtain ⟨rfl, htables⟩ := Prod.mk.inj hout
  refine ⟨u, hbuilt, htables, ?_⟩
  intro front back hsplit
  rw [hsplit] at hbuilt
  obtain ⟨bytes, t, hfront, ht, hkeeps⟩ := hagrees.encodeAll_front hbuilt
  refine ⟨bytes, t, hfront, ?_, ht, hkeeps⟩
  have hplain := hagrees.encodeAll_map front
  rw [hfront] at hplain
  exact Tables.encodeAll_listsUses hplain

/-- Two strings are used three times between them, one constructor twice, and two record types that
share their name differ. After three instructions two rows of strings and one of callees have been given
out. -/
theorem finish_listsUses_repeated :
    ∃ (d : Draft Callee) (b : Body Callee) (bytes : List UInt8) (t : TableBuilder Callee),
      d = ⟨[⟨.ldstr, .string "a"⟩, ⟨.newobj, .method (.wrapper .str)⟩, ⟨.ldstr, .string "b"⟩,
        ⟨.ldstr, .string "a"⟩, ⟨.newobj, .method (.wrapper .str)⟩,
        ⟨.initobj, .type (.struct "P" [("x", .i32)])⟩,
        ⟨.initobj, .type (.struct "P" [("x", .i64)])⟩], .empty⟩ ∧
      d.finish = .ok b ∧ b.tables.strings = ["a", "b"] ∧ b.tables.methods = [.wrapper .str] ∧
      b.tables.types = [.struct "P" [("x", .i32)], .struct "P" [("x", .i64)]] ∧
      b.tables.ListsUses d.code ∧ TableBuilder.empty.encodeAll (d.code.take 3) = .ok (bytes, t) ∧
      t.tables.strings = ["a", "b"] ∧ t.tables.types = [] ∧ t.tables.ListsUses (d.code.take 3) ∧
      t.Agrees ∧ t.strings.rows.lookup "b" = some 1 := by
  obtain ⟨d, hd⟩ : ∃ d : Draft Callee, d = ⟨[⟨.ldstr, .string "a"⟩,
    ⟨.newobj, .method (.wrapper .str)⟩, ⟨.ldstr, .string "b"⟩, ⟨.ldstr, .string "a"⟩,
    ⟨.newobj, .method (.wrapper .str)⟩, ⟨.initobj, .type (.struct "P" [("x", .i32)])⟩,
    ⟨.initobj, .type (.struct "P" [("x", .i64)])⟩], .empty⟩ := ⟨_, rfl⟩
  obtain ⟨b, hb⟩ : ∃ b, d.finish = .ok b := by
    subst hd
    exact ⟨_, rfl⟩
  obtain ⟨htables, hlists, u, -, -, hfronts⟩ := finish_listsUses d b hb
  obtain ⟨bytes, t, hfront, hfrontLists, hagrees, -⟩ :=
    hfronts (d.code.take 3) (d.code.drop 3) (List.take_append_drop 3 d.code).symm
  refine ⟨d, b, bytes, t, hd, hb, ?_, ?_, ?_, hlists, hfront, ?_, ?_, hfrontLists, hagrees, ?_⟩
  all_goals
    subst hd
    first
      | (cases hb; rfl)
      | (cases hfront; rfl)

end CallAdapter
