import Mathlib.Data.List.Perm.Subperm
import CallAdapter.Proofs.Encoding

/-!
# Tables list first uses

What the encoder leaves in the tables. Each operand that is a token asks `rowOf` for a row, so a
table grows by `useAll` over the operands of its kind, and started without rows it holds what they
are, each once and in the order of first use (`useAll_nil`, `encodeAll_firstUses`).

Callees are told apart by `==` alone, so all of this is about an equivalence and not about equality.
-/

namespace CallAdapter

variable {κ : Type}

/-! ### Rows -/

section Rows

variable {α : Type} [BEq α]

/-- No two entries are the same. -/
def Distinct (entries : List α) : Prop := entries.Pairwise fun a b => (a == b) = false

/-- The table after asking for the rows of some entries, one after the other. -/
def useAll (entries uses : List α) : List α :=
  uses.foldl (fun entries a => (rowOf entries a).2) entries

@[simp] theorem useAll_none (entries : List α) : useAll entries [] = entries := rfl

theorem useAll_cons (entries : List α) (a : α) (uses : List α) :
    useAll entries (a :: uses) = useAll (rowOf entries a).2 uses := rfl

theorem useAll_append (entries uses more : List α) :
    useAll entries (uses ++ more) = useAll (useAll entries uses) more :=
  List.foldl_append

theorem mem_useAll {entries uses : List α} {a : α} (h : a ∈ useAll entries uses) :
    a ∈ entries ∨ a ∈ uses := by
  induction uses generalizing entries with
  | nil => exact .inl h
  | cons b uses ih =>
    rcases ih h with hbefore | huse
    · rcases mem_rowOf hbefore with hentry | rfl
      · exact .inl hentry
      · exact .inr (by simp)
    · exact .inr (by simp [huse])

theorem Distinct.rowOf {entries : List α} (h : Distinct entries) (a : α) :
    Distinct (rowOf entries a).2 := by
  rcases rowOf_cases entries a with ⟨_, _, _, _, heq⟩ | ⟨hnew, heq⟩
  · rw [heq]
    exact h
  · rw [heq]
    apply List.pairwise_append.mpr
    refine ⟨h, List.pairwise_singleton _ _, ?_⟩
    intro b hb c hc
    obtain rfl : c = a := by simpa using hc
    exact hnew b hb

theorem Distinct.useAll {entries : List α} (h : Distinct entries) (uses : List α) :
    Distinct (useAll entries uses) := by
  induction uses generalizing entries with
  | nil => exact h
  | cons a uses ih => exact ih (h.rowOf a)

/-- Uses that are all new get one row each. -/
theorem Distinct.useAll_eq {entries uses : List α} (h : Distinct (entries ++ uses)) :
    CallAdapter.useAll entries uses = entries ++ uses := by
  induction uses generalizing entries with
  | nil => rw [useAll_none, List.append_nil]
  | cons a uses ih =>
    have hnew : ∀ b ∈ entries, (b == a) = false := fun b hb =>
      (List.pairwise_append.mp h).2.2 b hb a (by simp)
    rw [useAll_cons]
    rcases rowOf_cases entries a with ⟨row, b, hb, hsame, -⟩ | ⟨-, heq⟩
    · cases (hnew b (List.mem_of_getElem? hb)).symm.trans hsame
    · rw [List.append_cons] at h ⊢
      rw [heq]
      exact ih h

variable [EquivBEq α]

/-- Asking for rows adds the uses that the table does not have, each where it first occurs. -/
theorem useAll_eq (entries uses : List α) :
    useAll entries uses
      = entries ++ (uses.filter fun a => !entries.any (· == a)).eraseDups := by
  induction uses generalizing entries with
  | nil => simp
  | cons a uses ih =>
    rw [useAll_cons, ih]
    rcases rowOf_cases entries a with ⟨row, b, hb, hsame, heq⟩ | ⟨hnew, heq⟩
    · have hany : entries.any (· == a) = true :=
        List.any_eq_true.mpr ⟨b, List.mem_of_getElem? hb, hsame⟩
      simp [heq, hany]
    · have hany : entries.any (· == a) = false := by simpa using hnew
      -- The later uses that are still new are those that differ from `a` as well.
      have hrest : (uses.filter fun x => !(entries ++ [a]).any (· == x))
          = (uses.filter fun x => !entries.any (· == x)).filter fun x => !x == a := by
        rw [List.filter_filter]
        apply List.filter_congr
        intro x _
        simp [BEq.comm (a := a), Bool.and_comm]
      rw [heq, hrest, List.filter_cons_of_pos (by simp [hany]), List.eraseDups_cons,
        List.append_assoc, List.singleton_append]

theorem useAll_nil (uses : List α) : useAll [] uses = uses.eraseDups := by
  simp [useAll_eq]

theorem mem_of_mem_eraseDups {uses : List α} {a : α} (h : a ∈ uses.eraseDups) : a ∈ uses := by
  rw [← useAll_nil] at h
  exact (mem_useAll h).resolve_left List.not_mem_nil

theorem distinct_eraseDups (uses : List α) : Distinct uses.eraseDups := by
  rw [← useAll_nil]
  exact Distinct.useAll .nil uses

/-- Rows of the same entry are the same row. -/
theorem Distinct.row_eq {entries : List α} (h : Distinct entries) {row row' : Nat} {a b : α}
    (ha : entries[row]? = some a) (hb : entries[row']? = some b) (hsame : (a == b) = true) :
    row = row' := by
  obtain ⟨hrow, rfl⟩ := List.getElem?_eq_some_iff.mp ha
  obtain ⟨hrow', rfl⟩ := List.getElem?_eq_some_iff.mp hb
  have hdiffer := List.pairwise_iff_getElem.mp h
  rcases Nat.lt_trichotomy row row' with hlt | heq | hlt
  · rw [hdiffer row row' hrow hrow' hlt] at hsame
    cases hsame
  · exact heq
  · -- The pairs of a distinct list are ordered, so here the equality has to be turned round.
    have hsymm := BEq.symm hsame
    rw [hdiffer row' row hrow' hrow hlt] at hsymm
    cases hsymm

theorem Distinct.nodup {entries : List α} (h : Distinct entries) : entries.Nodup := by
  apply List.Pairwise.imp _ h
  rintro a _ hdiffer rfl
  simp at hdiffer

end Rows

/-! ### Operands -/

namespace Operand

/-- The string of an operand that is one. -/
def string? : Operand κ → Option String
  | .string s => some s
  | _ => Option.none

def method? : Operand κ → Option κ
  | .method callee => some callee
  | _ => Option.none

def type? : Operand κ → Option ValueType
  | .type t => some t
  | _ => Option.none

end Operand

/-- The strings that instructions refer to, in order. -/
def usedStrings (is : List (Instruction κ)) : List String := is.filterMap (·.operand.string?)

def usedMethods (is : List (Instruction κ)) : List κ := is.filterMap (·.operand.method?)

def usedTypes (is : List (Instruction κ)) : List ValueType := is.filterMap (·.operand.type?)

namespace Tables

variable [BEq κ]

/-- The tables that list exactly what instructions refer to, without duplicates and in the order of
first use. -/
def firstUses (is : List (Instruction κ)) : Tables κ :=
  ⟨(usedStrings is).eraseDups, (usedMethods is).eraseDups, (usedTypes is).eraseDups⟩

/-- No table has two rows for the same entry. -/
structure Distinct (t : Tables κ) : Prop where
  strings : CallAdapter.Distinct t.strings
  methods : CallAdapter.Distinct t.methods
  types : CallAdapter.Distinct t.types

theorem write_useAll (t : Tables κ) (o : Operand κ) :
    (t.write o).2 = ⟨useAll t.strings o.string?.toList, useAll t.methods o.method?.toList,
      useAll t.types o.type?.toList⟩ := by
  cases o <;> rfl

theorem encodeAll_useAll {t u : Tables κ} {is : List (Instruction κ)} {code : List UInt8}
    (h : t.encodeAll is = .ok (code, u)) :
    u = ⟨useAll t.strings (usedStrings is), useAll t.methods (usedMethods is),
      useAll t.types (usedTypes is)⟩ := by
  induction is generalizing t code with
  | nil =>
    cases h
    rfl
  | cons i is ih =>
    obtain ⟨bytes, rest, v, hhead, htail, -⟩ := encodeAll_cons h
    obtain ⟨-, -, rfl⟩ := encode_eq_ok hhead
    -- Each table first gets the operand of this instruction, if it is of its kind.
    have hcons : ∀ {β : Type} (f : Instruction κ → Option β),
        (i :: is).filterMap f = (f i).toList ++ is.filterMap f := by
      intro β f
      cases hf : f i <;> simp [hf]
    rw [ih htail, write_useAll]
    simp only [usedStrings, usedMethods, usedTypes, hcons, useAll_append]

variable [EquivBEq κ]

/-- Encoding leaves the first uses of the instructions in the tables, and nothing else. -/
theorem encodeAll_firstUses {u : Tables κ} {is : List (Instruction κ)} {code : List UInt8}
    (h : empty.encodeAll is = .ok (code, u)) : u = firstUses is := by
  rw [encodeAll_useAll h]
  simp only [empty, useAll_nil, firstUses]

theorem distinct_firstUses (is : List (Instruction κ)) : (firstUses is).Distinct :=
  ⟨distinct_eraseDups _, distinct_eraseDups _, distinct_eraseDups _⟩

end Tables

end CallAdapter
